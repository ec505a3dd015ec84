import UsersService.Service.Outcome

/-! Concurrent sign-ups. `CreateUser` checks the email and the nickname through the cache before
it inserts, and nothing orders two callers' checks and inserts, so both may pass the checks. What
every interleaving keeps comes from the store: the UNIQUE index refuses the second `INSERT`, so a
caller told its user was created has its row stored, and no two callers whose requests share an
email or a nickname are both told so. This holds whatever Redis does with each round trip and
whatever the cache holds, beside any concurrent callers that neither update nor delete a row.

The argument is thread-local. A sign-up succeeds only through a call after which its row is
stored (`Prog.Establishes`), and no call of any caller removes a row (`Call.KeepsRows`), so the
fact, once made true, stays true whoever runs next. -/

namespace UsersService

/-! ### Calls that keep every row -/

/-- A call after which every stored row is still stored: any but `UPDATE` and `DELETE`. -/
def Call.KeepsRows : Call → Prop
  | .update _ _ | .delete _ => False
  | _ => True

theorem Call.rows_exec {c : Call} (h : c.KeepsRows) {w : World} {r : User} (hr : r ∈ w.table.rows) :
    r ∈ (c.exec w).2.table.rows := by
  cases c with
  | insert u =>
    simp only [Call.exec]
    split
    · rename_i t ht
      rw [Table.insert_eq_ok ht]
      exact List.mem_cons_of_mem _ hr
    · exact hr
  | publish => exact hr
  | update | delete => exact h.elim
  | select q => rwa [(Call.unchanged_exec (c := .select q) trivial w).1]
  | now => rwa [(Call.unchanged_exec (c := .now) trivial w).1]
  | redisGet key => rwa [(Call.unchanged_exec (c := .redisGet key) trivial w).1]
  | redisExec cmds => rwa [(Call.unchanged_exec (c := .redisExec cmds) trivial w).1]

namespace Prog

variable {α β : Type}

/-- Every result a program can return satisfies `Q`, whatever answers its calls get. -/
inductive Yields (Q : α → Prop) : Prog α → Prop
  | ok {a : α} : Q a → Yields Q (done (.ok a))
  | error (e : Err) : Yields Q (done (.error e))
  | call {c : Call} {k : c.Ret → Prog α} : (∀ r, Yields Q (k r)) → Yields Q (call c k)

theorem Yields.any (p : Prog α) : Yields (fun _ => True) p := by
  induction p with
  | done r => cases r with
    | error e => exact .error e
    | ok a => exact .ok trivial
  | call c k ih => exact .call ih

theorem Yields.bind {Q : α → Prop} {R : β → Prop} {p : Prog α} {f : α → Prog β} (hp : Yields Q p)
    (hf : ∀ a, Q a → Yields R (f a)) : Yields R (p >>= f) := by
  show Yields R (p.bind f)
  induction hp with
  | ok h => exact hf _ h
  | error e => exact .error e
  | call _ ih => exact .call ih

/-- Every path of a program to success passes a call after which `M` holds, whatever the world
is when it makes its calls. -/
inductive Establishes (M : World → Prop) : Prog α → Prop
  | error (e : Err) : Establishes M (done (.error e))
  | call {c : Call} {k : c.Ret → Prog α} :
      (∀ w, ¬M (c.exec w).2 → Establishes M (k (c.exec w).1)) → Establishes M (call c k)

namespace Establishes

variable {M : World → Prop}

theorem bind_left {p : Prog α} (hp : Establishes M p) (f : α → Prog β) : Establishes M (p >>= f) := by
  show Establishes M (p.bind f)
  induction hp with
  | error e => exact .error e
  | call _ ih => exact .call ih

theorem bind {Q : α → Prop} {p : Prog α} {f : α → Prog β} (hp : Yields Q p)
    (hf : ∀ a, Q a → Establishes M (f a)) : Establishes M (p >>= f) := by
  show Establishes M (p.bind f)
  induction hp with
  | ok h => exact hf _ h
  | error e => exact .error e
  | call _ ih => exact .call fun w _ => ih _

theorem tryCatch {p : Prog α} {h : Err → Prog α} (hp : Establishes M p)
    (hh : ∀ e, Establishes M (h e)) : Establishes M (p.tryCatch h) := by
  induction hp with
  | error e => exact hh e
  | call _ ih => exact .call ih

theorem wrapErr {p : Prog α} (hp : Establishes M p) (context : String) :
    Establishes M (UsersService.wrapErr context p) :=
  hp.tryCatch fun _ => .error _

theorem imp {M' : World → Prop} (h : ∀ w, M w → M' w) {p : Prog α} (hp : Establishes M p) :
    Establishes M' p := by
  induction hp with
  | error e => exact .error e
  | call _ ih => exact .call fun w hw => ih w (fun hm => hw (h _ hm))

end Establishes

end Prog

theorem UserRepository.create_establishes (u : User) :
    (UserRepository.create u).Establishes fun w => u ∈ w.table.rows := by
  refine .call fun w hw => ?_
  simp only [Call.exec] at hw ⊢
  split at hw
  · rename_i t ht
    exact absurd (by rw [Table.insert_eq_ok ht]; exact List.mem_cons_self _ _) hw
  · exact .error _

/-! ### One sign-up -/

/-- A row stored under `id` with the request's email and nickname. -/
def SignedUp (user : User) (id : UUID) (w : World) : Prop :=
  ∃ r ∈ w.table.rows, r.id = id ∧ r.email = user.email ∧ r.nickname = user.nickname

/-- What one `CreateUser` caller brings: the request, and what `uuid.New()` and bcrypt give it. -/
structure SignUp where
  user : User
  id : UUID
  hashed : Except Err String

/-- The caller's program: `CreateUser` over the production repository, its user dropped. -/
def SignUp.prog (s : SignUp) : Prog Unit :=
  Service.createUser production s.user s.id s.hashed >>= fun _ => pure ()

open Prog in
theorem prepareUser_yields (repo : Repository) (user : User) (id : UUID) (hashed : Except Err String) :
    (Service.prepareUser repo user id hashed).Yields
      fun u => u.id = id ∧ u.email = user.email ∧ u.nickname = user.nickname :=
  (Yields.any _).bind fun _ _ => (Yields.any _).bind fun _ _ => (Yields.any _).bind fun _ _ =>
    (Yields.any _).bind fun _ _ => (Yields.any _).bind fun _ _ => (Yields.any _).bind fun _ _ =>
      (Yields.any _).bind fun _ _ => .ok ⟨rfl, rfl, rfl⟩

open Prog in
/-- A sign-up succeeds only through its own `INSERT`. -/
theorem SignUp.establishes (s : SignUp) : s.prog.Establishes (SignedUp s.user s.id) :=
  ((Establishes.bind (prepareUser_yields _ _ _ _) fun u hu =>
    ((((UserRepository.create_establishes u).imp fun _ hw => ⟨u, hw, hu⟩).bind_left _).wrapErr _
      |>.bind_left _).bind_left _).bind_left _)

open Prog in
/-- A sign-up neither updates nor deletes a row. -/
theorem SignUp.keepsRows (s : SignUp) : s.prog.AllCalls Call.KeepsRows :=
  ((prepareUser_reads _ _ _).imp (fun c hc => by cases c <;> trivial)
    |>.bind fun _ => ((((UserRepository.create_allCalls trivial).bind fun _ =>
      ((execPipeline_allCalls trivial).wrapErr _).wrapErr _).wrapErr _).bind fun _ =>
        .send trivial).bind fun _ => .done _).bind fun _ => .done _

/-! ### Every interleaving -/

section Guarded

variable {P : Call → Prop} {M : Nat → World → Prop}

/-- Each caller `i` makes only `P`-calls, and `M i` holds or the caller establishes it before it
can succeed. -/
def Guarded (P : Call → Prop) (M : Nat → World → Prop) (w : World) (ts : List (Prog Unit)) : Prop :=
  ∀ i t, ts[i]? = some t → t.AllCalls P ∧ (M i w ∨ t.Establishes (M i))

variable (hkeep : ∀ i c w, P c → M i w → M i (c.exec w).2)
include hkeep

theorem stepThread_guarded (j : Nat) {w : World} {ts : List (Prog Unit)} (h : Guarded P M w ts) :
    Guarded P M (stepThread j w ts).1 (stepThread j w ts).2 := by
  unfold stepThread
  split
  · rename_i c k hj
    obtain ⟨hall, hest⟩ := h j _ hj
    cases hall with
    | call hc hk =>
    intro i t hi
    rw [List.getElem?_set] at hi
    by_cases hji : j = i
    · subst hji
      rw [if_pos rfl, if_pos (List.getElem?_eq_some_iff.mp hj).1] at hi
      cases hi
      refine ⟨hk _, ?_⟩
      rcases hest with hm | hest
      · exact .inl (hkeep _ _ _ hc hm)
      · cases hest with
        | call hnext =>
        by_cases hm : M j (c.exec w).2
        exacts [.inl hm, .inr (hnext w hm)]
    · rw [if_neg hji] at hi
      obtain ⟨hall', hest'⟩ := h i t hi
      exact ⟨hall', hest'.imp_left (hkeep _ _ _ hc)⟩
  · exact h

theorem interleave_guarded (sched : List Nat) {w : World} {ts : List (Prog Unit)}
    (h : Guarded P M w ts) : Guarded P M (interleave sched w ts).1 (interleave sched w ts).2 := by
  induction sched generalizing w ts with
  | nil => exact h
  | cons j sched ih => exact ih (stepThread_guarded hkeep j h)

omit hkeep in
/-- A caller that succeeded made its mark hold. -/
theorem Guarded.succeeded {w : World} {ts : List (Prog Unit)} (h : Guarded P M w ts) {i : Nat}
    (hi : ts[i]? = some (.done (.ok ()))) : M i w := by
  obtain ⟨-, hm | hest⟩ := h i _ hi
  · exact hm
  · cases hest

end Guarded

/-! ### Concurrent sign-ups -/

/-- Under every interleaving of concurrent `CreateUser` callers, beside any other callers that
neither update nor delete a row, whatever Redis does with each round trip and whatever the cache
holds: a caller told its user was created has a row stored under its id with its email and
nickname, and two callers told so whose requests share an email or a nickname were given the same
id. -/
theorem concurrent_signups_stay_unique (sched : List Nat) (w : World) (signUps : List SignUp)
    (others : List (Prog Unit)) (hothers : ∀ t ∈ others, t.AllCalls Call.KeepsRows) :
    let run := interleave sched w (signUps.map SignUp.prog ++ others)
    (∀ (i : Nat) (s : SignUp), signUps[i]? = some s → run.2[i]? = some (.done (.ok ())) →
      SignedUp s.user s.id run.1) ∧
    ∀ (i j : Nat) (s s' : SignUp), signUps[i]? = some s → signUps[j]? = some s' →
      run.2[i]? = some (.done (.ok ())) → run.2[j]? = some (.done (.ok ())) →
      s.user.email = s'.user.email ∨ s.user.nickname = s'.user.nickname → s.id = s'.id := by
  intro run
  have hg : Guarded Call.KeepsRows (fun i w => ∀ s, signUps[i]? = some s → SignedUp s.user s.id w)
      run.1 run.2 := by
    refine interleave_guarded (fun i c w hc hm s hs => ?_) sched fun i t ht => ⟨?_, ?_⟩
    · obtain ⟨r, hr, h⟩ := hm s hs
      exact ⟨r, Call.rows_exec hc hr, h⟩
    · rcases List.mem_append.mp (List.getElem?_mem ht) with h | h
      · obtain ⟨s, -, rfl⟩ := List.mem_map.mp h
        exact s.keepsRows
      · exact hothers t h
    · rcases hs : signUps[i]? with _ | s
      · exact .inl fun _ hs' => nomatch hs'
      · have hi : i < (signUps.map SignUp.prog).length := by
          simpa using (List.getElem?_eq_some_iff.mp hs).1
        rw [List.getElem?_append_left hi, List.getElem?_map, hs] at ht
        cases ht
        exact .inr (s.establishes.imp fun _ hw _ hs' => by cases hs'; exact hw)
  have hok : ∀ (i : Nat) (s : SignUp), signUps[i]? = some s → run.2[i]? = some (.done (.ok ())) →
      SignedUp s.user s.id run.1 := fun _ s hs hi => hg.succeeded hi s hs
  refine ⟨hok, fun i j s s' hs hs' hi hj hsame => ?_⟩
  obtain ⟨r, hr, hid, he, hn⟩ := hok i s hs hi
  obtain ⟨r', hr', hid', he', hn'⟩ := hok j s' hs' hj
  rw [← hid, ← hid', Table.eq_of_mem hr hr' (.inr ?_)]
  rcases hsame with h | h
  exacts [.inl (by rw [he, he', h]), .inr (by rw [hn, hn', h])]

/-- Alice and Bob sign up at once under one email. -/
def twinSignUps : List SignUp :=
  [⟨alice, aliceId, .ok "h"⟩, ⟨{ bob with email := alice.email }, bob.id, .ok "h"⟩]

/-- Both callers pass the service's checks before either inserts. -/
def twinSchedule : List Nat :=
  List.replicate 6 0 ++ List.replicate 6 1 ++ List.replicate 3 0 ++ [1]

/-- Alice is told her user was created and Bob is refused with `ErrEmailTaken`, which the UNIQUE
index raised after both passed the checks; Alice's row is stored. -/
theorem concurrent_signups_stay_unique_for_twins :
    let run := interleave twinSchedule World.empty (twinSignUps.map SignUp.prog ++ [])
    run.2 = [.done (.ok ()), .done (.error (.wrap "failed to save user" .emailTaken))] ∧
      SignedUp alice aliceId run.1 :=
  ⟨rfl, (concurrent_signups_stay_unique twinSchedule World.empty twinSignUps [] fun _ h => nomatch h).1
    0 _ rfl rfl⟩

end UsersService
