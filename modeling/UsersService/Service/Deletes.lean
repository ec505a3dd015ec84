import UsersService.Service.Announcements

/-! Deletes under every interleaving. A `DeleteUser` that succeeded removed the row through its
own `DELETE`, and no other request puts a row under that id back: `CreateUser` inserts only under
the fresh id `uuid.New()` gave it, and `UPDATE ... WHERE id = $1` rewrites columns of a stored row
but stores no new one, even when the user it writes was read from a stale cache entry. So once a
caller is told its delete succeeded, the store holds no row of the id whatever the other callers,
the cache and Redis do, although a racing read may still put the user back in the cache
(`deleted_user_read_back`).

The argument is the thread-local one of the sign-ups (`Guarded`): the delete establishes the
absence, and every call of every caller keeps it. The same step lemma (`Call.born_exec`) says
more: a row keeps the id and the creation time it was stored with, so whatever requests run, every
row under an id no request creates is a row of the start, created when it was. -/

namespace UsersService

/-! ### Calls that never store an id -/

/-- A call that inserts no row under `i`. -/
def Call.InsertsOther (i : UUID) : Call → Prop
  | .insert u => u.id ≠ i
  | _ => True

/-- No stored row has id `i`. -/
def Absent (i : UUID) (w : World) : Prop := ∀ r ∈ w.table.rows, r.id ≠ i

theorem Call.Reads.insertsOther {c : Call} (h : c.Reads) (i : UUID) : c.InsertsOther i := by
  cases c with
  | insert => exact h.elim
  | _ => trivial

/-- An `UPDATE` stores no new row: each row after it is a row before, or the one it rewrote,
whose id and creation time it keeps. -/
theorem Table.update_origin {t t' : Table} {u : User} {now n : Nat}
    (h : t.update u now = .ok (n, t')) {r : User} (hr : r ∈ t'.rows) :
    ∃ r₀ ∈ t.rows, r.id = r₀.id ∧ r.createdAt = r₀.createdAt := by
  cases n with
  | zero => exact ⟨r, Table.update_ok_zero h ▸ hr, rfl, rfl⟩
  | succ n =>
    obtain ⟨old, hold, hrows⟩ := Table.update_ok_succ h
    obtain ⟨hmem, hm⟩ := Table.select_eq_some.mp hold
    have hid : old.id = u.id := by simpa [Lookup.matches] using hm
    rw [hrows] at hr
    obtain ⟨r₀, hr₀, rfl⟩ := List.mem_map.mp hr
    split
    · exact ⟨old, hmem, hid.symm, rfl⟩
    · exact ⟨r₀, hr₀, rfl, rfl⟩

/-- Every stored row with id `i` has a creation time `S` admits. With `S` empty, no row has the
id. -/
def Born (i : UUID) (S : Nat → Prop) (w : World) : Prop :=
  ∀ r ∈ w.table.rows, r.id = i → S r.createdAt

/-- A call that inserts no row under `i` adds no row with id `i` and changes no creation time of
one. -/
theorem Call.born_exec {i : UUID} {S : Nat → Prop} {c : Call} (hc : c.InsertsOther i) {w : World}
    (hw : Born i S w) : Born i S (c.exec w).2 := by
  cases c with
  | insert u =>
    simp only [Call.exec]
    split
    · rename_i t ht
      intro r hr hri
      rw [Table.insert_eq_ok ht] at hr
      rcases List.mem_cons.mp hr with rfl | hr
      exacts [absurd hri hc, hw r hr hri]
    · exact hw
  | update u now =>
    simp only [Call.exec]
    split
    · rename_i n t ht
      intro r hr hri
      obtain ⟨r₀, hr₀, hid, hcr⟩ := Table.update_origin ht hr
      exact hcr ▸ hw r₀ hr₀ (hid ▸ hri)
    · exact hw
  | delete j => exact fun r hr => hw r (Table.mem_delete.mp hr).1
  | publish => exact hw
  | select q => rw [Born, (Call.unchanged_exec (c := .select q) trivial w).1]; exact hw
  | now => rw [Born, (Call.unchanged_exec (c := .now) trivial w).1]; exact hw
  | redisGet key => rw [Born, (Call.unchanged_exec (c := .redisGet key) trivial w).1]; exact hw
  | redisExec cmds => rw [Born, (Call.unchanged_exec (c := .redisExec cmds) trivial w).1]; exact hw

/-! ### What each request can write -/

theorem Prog.AllCalls.bind_yields {α β : Type} {P : Call → Prop} {Q : α → Prop} {p : Prog α}
    {f : α → Prog β} (hp : p.AllCalls P) (hy : p.Yields Q) (hf : ∀ a, Q a → (f a).AllCalls P) :
    (p >>= f).AllCalls P := by
  show (p.bind f).AllCalls P
  induction hy with
  | ok h => exact hf _ h
  | error e => exact .done _
  | call _ ih => cases hp with
    | call hc hk => exact .call hc fun r => ih r (hk r)

theorem commit_allCalls {P : Call → Prop} {write : Prog Unit} (hw : write.AllCalls P)
    (hp : ∀ k u, P (.publish k u)) (context : String) (k : EventType) (u : User) :
    (Service.commit context write k u).AllCalls P :=
  (hw.wrapErr _).bind fun _ => .send (hp k u)

open Prog in
/-- A request inserts a row only under the id it creates: none under `i` unless it is a
`CreateUser` given `i`. -/
theorem Request.insertsOther {i : UUID} :
    (r : Request) → (∀ user hashed, r ≠ .createUser user i hashed) →
      r.prog.AllCalls (Call.InsertsOther i)
  | .createUser user id hashed, h =>
    have hne : id ≠ i := fun he => h user hashed (by rw [he])
    (((prepareUser_reads user id hashed).imp fun _ hc => hc.insertsOther i).bind_yields
      (prepareUser_yields _ _ _ _) fun u hu =>
        (commit_allCalls ((DecoratorCall.create u).allCalls
          (fun _ he => by cases he; exact fun h' => hne (hu.1.symm.trans h')) (fun _ => trivial) (fun _ _ => trivial) (fun _ => trivial) trivial (fun _ => trivial)
          (fun _ => trivial) fun _ => trivial) (fun _ _ => trivial) _ _ _).bind fun _ => .done _)
      |>.bind fun _ => .done _
  | .getUser id, _ =>
    (((decoratorRead_looks _ (.id id)).imp fun _ h => h.reads.insertsOther i).wrapErr _).bind
      fun _ => .done _
  | .updateUser id updatedUser, _ =>
    (((prepareUpdate_looks id updatedUser).imp fun _ h => h.reads.insertsOther i).bind fun u =>
      (commit_allCalls ((DecoratorCall.update u).allCalls (fun _ he => by cases he)
        (fun _ => trivial) (fun _ _ => trivial) (fun _ => trivial) trivial (fun _ => trivial)
        (fun _ => trivial) fun _ => trivial) (fun _ _ => trivial) _ _ _).bind fun _ => .done _)
      |>.bind fun _ => .done _
  | .deleteUser id, _ =>
    (((getForChange_looks id _).imp fun _ h => h.reads.insertsOther i).bind fun u =>
      (commit_allCalls ((DecoratorCall.delete id).allCalls (fun _ he => by cases he)
        (fun _ => trivial) (fun _ _ => trivial) (fun _ => trivial) trivial (fun _ => trivial)
        (fun _ => trivial) fun _ => trivial) (fun _ _ => trivial) _ _ _).bind fun _ => .done _)
      |>.bind fun _ => .done _

open Prog in
/-- A `DeleteUser` succeeds only through its `DELETE`, after which no row has the id. -/
theorem Request.deleteUser_establishes (id : UUID) :
    (Request.deleteUser id).prog.Establishes (Absent id) :=
  ((Establishes.bind (Yields.any _) fun _ _ =>
    (((Establishes.bind (Yields.any _) fun _ _ =>
      (Establishes.call fun _ hw => absurd (fun _ hr => (Table.mem_delete.mp hr).2) hw).bind_left _
      ).wrapErr _).bind_left _).bind_left _).bind_left _)

/-! ### Deletes stay deleted -/

/-- Under every interleaving of concurrent requests none of which creates a user under `i`,
whatever Redis does with each round trip and whatever the cache holds: once a `DeleteUser` of `i`
has succeeded, the store holds no row with id `i`. -/
theorem deletes_stay_deleted (sched : List Nat) (w : World) (reqs : List Request) (i : UUID)
    (hfresh : ∀ r ∈ reqs, ∀ user hashed, r ≠ .createUser user i hashed) :
    let run := interleave sched w (reqs.map Request.prog)
    ∀ j : Nat, reqs[j]? = some (.deleteUser i) → run.2[j]? = some (.done (.ok ())) →
      Absent i run.1 := by
  intro run
  have hg : Guarded (Call.InsertsOther i) (fun j w => reqs[j]? = some (.deleteUser i) → Absent i w)
      run.1 run.2 := by
    refine interleave_guarded (fun _ _ _ hc hm hj => Call.born_exec (S := fun _ => False) hc (hm hj)) sched
      fun j t ht => ?_
    rw [List.getElem?_map] at ht
    obtain ⟨r, hr, rfl⟩ := Option.map_eq_some'.mp ht
    refine ⟨r.insertsOther (hfresh r (List.getElem?_mem hr)), ?_⟩
    by_cases hd : r = .deleteUser i
    · subst hd
      exact .inr ((Request.deleteUser_establishes i).imp fun _ h _ => h)
    · exact .inl fun hj => absurd (Option.some.inj (hr.symm.trans hj)) hd
  exact fun j hj hok => hg.succeeded hok hj

/-- A `GetUser` reads Alice before her `DeleteUser` runs and caches her after it: the cache serves
her again, and the store still holds no row of her id. -/
theorem deletes_stay_deleted_behind_a_read :
    let run := interleave ([0, 0] ++ List.replicate 7 1 ++ [0]) raceWorld
      ([Request.getUser aliceId, .deleteUser aliceId].map Request.prog)
    run.2 = [.done (.ok ()), .done (.ok ())] ∧ (run.1.cache (userKey aliceId)).isSome = true ∧
      Absent aliceId run.1 :=
  ⟨rfl, rfl, deletes_stay_deleted _ _ _ _ (by simp) 1 rfl rfl⟩

/-! ### Ids and creation times -/

/-- Under every interleaving of concurrent requests none of which creates a user under `i`,
whatever Redis does with each round trip and whatever the cache holds: every row with id `i` at
the end is one the store held under `i` at the start, with the same creation time. Only
`CreateUser` stores a new id, the one `uuid.New()` gave it, whatever the id in an `UpdateUser`
request, and `UPDATE` keeps `created_at`. -/
theorem rows_keep_their_creation (sched : List Nat) (w : World) (reqs : List Request) (i : UUID)
    (hfresh : ∀ r ∈ reqs, ∀ user hashed, r ≠ .createUser user i hashed) :
    ∀ r ∈ (interleave sched w (reqs.map Request.prog)).1.table.rows, r.id = i →
      ∃ r₀ ∈ w.table.rows, r₀.id = i ∧ r₀.createdAt = r.createdAt :=
  interleave_inv (I := Born i fun c => ∃ r₀ ∈ w.table.rows, r₀.id = i ∧ r₀.createdAt = c)
    (fun _ _ hc hw => Call.born_exec hc hw) sched (fun r hr hri => ⟨r, hr, hri, rfl⟩) fun t ht => by
      obtain ⟨r, hr, rfl⟩ := List.mem_map.mp ht
      exact r.insertsOther (hfresh r hr)

/-- An `UpdateUser` of Alice whose request carries Bob's id and a creation time of its own: the
row keeps Alice's id and creation time. -/
theorem rows_keep_their_creation_for_alice :
    let run := interleave (List.replicate 10 0) raceWorld
      [(Request.updateUser aliceId { franceRequest with id := bob.id, createdAt := 7 }).prog]
    run.2 = [.done (.ok ())] ∧ run.1.table.rows = [{ alice with country := "FR", updatedAt := 2 }] ∧
      ∃ r₀ ∈ raceWorld.table.rows, r₀.id = aliceId ∧ r₀.createdAt = alice.createdAt :=
  ⟨rfl, rfl, rows_keep_their_creation (List.replicate 10 0) raceWorld
    [.updateUser aliceId { franceRequest with id := bob.id, createdAt := 7 }] aliceId (by simp)
    { alice with country := "FR", updatedAt := 2 } (List.mem_singleton_self _) rfl⟩

end UsersService
