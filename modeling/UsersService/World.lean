import UsersService.Store.Table

/-! The world the service runs against, and the programs it runs there. A program is a tree of
calls to the outside world, each answered atomically: one SQL statement, one Redis round trip
(a `GET` or the `Exec` of a pipeline), a clock reading or a call to the publisher. `Prog.run`
answers the calls one after another; `Concurrency` interleaves several programs call by call.
What Redis does with each round trip is read from `World.redis`: an empty list means every
coming round trip succeeds. -/

namespace UsersService

/-- A command of a Redis pipeline. Entries expire after the configured TTL; expiry is a step of
the environment, so `SET` keeps no TTL here. -/
inductive RedisCmd where
  | set (key : String) (value : UserJson)
  | del (key : String)

/-- The keyspace after one command. -/
def RedisCmd.apply : RedisCmd → (String → Option UserJson) → String → Option UserJson
  | .set key value, cache => fun k => if k = key then some value else cache k
  | .del key, cache => fun k => if k = key then none else cache k

/-- A pipeline's commands in order, each applied when its mark is `true`; a command without a
mark is not applied. -/
def applyMarked : List RedisCmd → List Bool → (String → Option UserJson) → String → Option UserJson
  | [], _, cache => cache
  | _ :: cmds, [], cache => applyMarked cmds [] cache
  | cmd :: cmds, b :: bs, cache => applyMarked cmds bs (if b then cmd.apply cache else cache)

/-- A pipeline whose commands all took effect. -/
def applyAll (cmds : List RedisCmd) (cache : String → Option UserJson) :
    String → Option UserJson :=
  applyMarked cmds (cmds.map fun _ => true) cache

/-- How a Redis round trip ends: answered, or failed with an error text after the server applied
the pipeline commands marked `true`. -/
inductive RedisOutcome where
  | ok
  | fail (text : String) (applied : List Bool)

/-- The users table, the Redis keyspace, what the coming Redis round trips do, the clock, and the
calls made to the publisher so far. -/
structure World where
  table : Table
  cache : String → Option UserJson
  redis : List RedisOutcome
  clock : Nat
  published : List (EventType × User)

/-- The outcome of the next Redis round trip, and the world after it is used. -/
def World.nextRedis (w : World) : RedisOutcome × World :=
  match w.redis with
  | [] => (.ok, w)
  | o :: os => (o, { w with redis := os })

/-- A call to the outside world. -/
inductive Call where
  | insert (u : User)
  | select (q : Lookup)
  | update (u : User) (now : Nat)
  | delete (id : UUID)
  | now
  | redisGet (key : String)
  | redisExec (cmds : List RedisCmd)
  | publish (kind : EventType) (u : User)

/-- The answer to a call. -/
def Call.Ret : Call → Type
  | .insert _ => Except Violation Unit
  | .select _ => Option User
  | .update _ _ => Except Violation Nat
  | .delete _ => Nat
  | .now => Nat
  | .redisGet _ => Except Err UserJson
  | .redisExec _ => Except Err Unit
  | .publish _ _ => Unit

/-- `GET key` on a keyspace: the value, or `redis.Nil`. -/
def readKey (cache : String → Option UserJson) (key : String) : Except Err UserJson :=
  match cache key with
  | some v => .ok v
  | none => .error redisNil

/-- A call answered on the world: the answer, and the world after it. `time.Now()` reads a clock
that moves forward at every reading. -/
def Call.exec : (c : Call) → World → c.Ret × World
  | .insert u, w =>
    match w.table.insert u with
    | .ok t => (.ok (), { w with table := t })
    | .error v => (.error v, w)
  | .select q, w => (w.table.select q, w)
  | .update u t, w =>
    match w.table.update u t with
    | .ok (n, t) => (.ok n, { w with table := t })
    | .error v => (.error v, w)
  | .delete i, w => ((w.table.delete i).1, { w with table := (w.table.delete i).2 })
  | .now, w => (w.clock + 1, { w with clock := w.clock + 1 })
  | .redisGet key, w =>
    match w.nextRedis with
    | (.ok, w') => (readKey w'.cache key, w')
    | (.fail text _, w') => (.error (.redis text), w')
  | .redisExec cmds, w =>
    match w.nextRedis with
    | (.ok, w') => (.ok (), { w' with cache := applyAll cmds w'.cache })
    | (.fail text mask, w') =>
      (.error (.redis text), { w' with cache := applyMarked cmds mask w'.cache })
  | .publish kind u, w => ((), { w with published := w.published ++ [(kind, u)] })

/-- A program: done with a result or an error, or making a call and going on with its answer. -/
inductive Prog (α : Type) where
  | done (r : Except Err α)
  | call (c : Call) (k : c.Ret → Prog α)

namespace Prog

variable {α β : Type}

/-- Go's `if err != nil { return err }` after every step. -/
def bind : Prog α → (α → Prog β) → Prog β
  | done (.ok a), f => f a
  | done (.error e), _ => done (.error e)
  | call c k, f => call c fun r => (k r).bind f

/-- The error handler runs on the program's error. -/
def tryCatch : Prog α → (Err → Prog α) → Prog α
  | done (.ok a), _ => done (.ok a)
  | done (.error e), h => h e
  | call c k, h => call c fun r => (k r).tryCatch h

instance : Monad Prog where
  pure a := done (.ok a)
  bind := bind

instance : MonadExceptOf Err Prog where
  throw e := done (.error e)
  tryCatch := tryCatch

/-- Go's `v, err := f()`: the outcome of a program as a value. -/
def attempt : Prog α → Prog (Except Err α)
  | done r => done (.ok r)
  | call c k => call c fun r => (k r).attempt

/-- One call, its answer the result. -/
def send (c : Call) : Prog c.Ret := call c fun r => done (.ok r)

/-- Run a program to its end, answering its calls one after another. -/
def run : Prog α → World → Except Err α × World
  | done r, w => (r, w)
  | call c k, w => (k (c.exec w).1).run (c.exec w).2

@[simp] theorem run_done (r : Except Err α) (w : World) : (done r).run w = (r, w) := rfl

@[simp] theorem run_pure (a : α) (w : World) : (pure a : Prog α).run w = (.ok a, w) := rfl

@[simp] theorem run_throw (e : Err) (w : World) : (throw e : Prog α).run w = (.error e, w) := rfl

@[simp] theorem run_send (c : Call) (w : World) : (send c).run w = (.ok (c.exec w).1, (c.exec w).2) :=
  rfl

@[simp] theorem run_bind (p : Prog α) (f : α → Prog β) (w : World) :
    (p >>= f).run w =
      match p.run w with
      | (.ok a, w') => (f a).run w'
      | (.error e, w') => (.error e, w') := by
  show (p.bind f).run w = _
  induction p generalizing w with
  | done r => cases r <;> rfl
  | call c k ih => exact ih _ _

@[simp] theorem run_tryCatch (p : Prog α) (h : Err → Prog α) (w : World) :
    (tryCatch p h).run w =
      match p.run w with
      | (.ok a, w') => (.ok a, w')
      | (.error e, w') => (h e).run w' := by
  show (p.tryCatch h).run w = _
  induction p generalizing w with
  | done r => cases r <;> rfl
  | call c k ih => exact ih _ _

@[simp] theorem run_attempt (p : Prog α) (w : World) :
    p.attempt.run w = (.ok (p.run w).1, (p.run w).2) := by
  induction p generalizing w with
  | done r => rfl
  | call c k ih => exact ih _ _

/-- A run that ends well ran each part of a `bind` to a good end. -/
theorem run_bind_eq_ok {p : Prog α} {f : α → Prog β} {w w' : World} {b : β}
    (h : (p >>= f).run w = (.ok b, w')) :
    ∃ a w₁, p.run w = (.ok a, w₁) ∧ (f a).run w₁ = (.ok b, w') := by
  rw [run_bind] at h
  rcases hp : p.run w with ⟨_ | a, w₁⟩ <;> rw [hp] at h
  · cases h
  · exact ⟨a, w₁, rfl, h⟩

/-- A run of a `bind` that fails failed in its first part or in its second. -/
theorem run_bind_eq_error {p : Prog α} {f : α → Prog β} {w w' : World} {e : Err}
    (h : (p >>= f).run w = (.error e, w')) :
    p.run w = (.error e, w') ∨ ∃ a w₁, p.run w = (.ok a, w₁) ∧ (f a).run w₁ = (.error e, w') := by
  rw [run_bind] at h
  rcases hp : p.run w with ⟨e' | a, w₁⟩ <;> rw [hp] at h
  · exact .inl (by simpa using h)
  · exact .inr ⟨a, w₁, rfl, h⟩

/-- Every call a program can make satisfies `P`, whatever the answers it gets. -/
inductive AllCalls (P : Call → Prop) : Prog α → Prop
  | done (r : Except Err α) : AllCalls P (done r)
  | call {c : Call} {k : c.Ret → Prog α} : P c → (∀ r, AllCalls P (k r)) → AllCalls P (call c k)

namespace AllCalls

variable {P : Call → Prop}

theorem pure (a : α) : AllCalls P (Pure.pure a : Prog α) := .done _

theorem throw (e : Err) : AllCalls P (MonadExcept.throw e : Prog α) := .done _

theorem send {c : Call} (h : P c) : AllCalls P (Prog.send c) := .call h fun _ => .done _

theorem bind {p : Prog α} {f : α → Prog β} (hp : AllCalls P p) (hf : ∀ a, AllCalls P (f a)) :
    AllCalls P (p >>= f) := by
  show AllCalls P (p.bind f)
  induction hp with
  | done r => cases r with
    | error e => exact .done _
    | ok a => exact hf a
  | call hc _ ih => exact .call hc ih

theorem tryCatch {p : Prog α} {h : Err → Prog α} (hp : AllCalls P p)
    (hh : ∀ e, AllCalls P (h e)) : AllCalls P (p.tryCatch h) := by
  induction hp with
  | done r => cases r with
    | error e => exact hh e
    | ok a => exact .done _
  | call hc _ ih => exact .call hc ih

theorem attempt {p : Prog α} (hp : AllCalls P p) : AllCalls P p.attempt := by
  induction hp with
  | done r => exact .done _
  | call hc _ ih => exact .call hc ih

theorem imp {Q : Call → Prop} (h : ∀ c, P c → Q c) {p : Prog α} (hp : AllCalls P p) :
    AllCalls Q p := by
  induction hp with
  | done r => exact .done r
  | call hc _ ih => exact .call (h _ hc) ih

/-- A property of the world that every allowed call keeps holds after a run. -/
theorem run_inv {I : World → Prop} (hstep : ∀ c w, P c → I w → I (c.exec w).2) {p : Prog α}
    (hp : AllCalls P p) {w : World} (hw : I w) : I (p.run w).2 := by
  induction hp generalizing w with
  | done r => exact hw
  | call hc _ ih => exact ih _ (hstep _ _ hc hw)

end AllCalls

end Prog

/-- `fmt.Errorf("context: %w", err)` around the error of a program. -/
def wrapErr {α : Type} (context : String) (p : Prog α) : Prog α :=
  p.tryCatch fun e => throw (.wrap context e)

theorem Prog.AllCalls.wrapErr {α : Type} {P : Call → Prop} {p : Prog α} (hp : p.AllCalls P)
    (context : String) : (UsersService.wrapErr context p).AllCalls P :=
  hp.tryCatch fun _ => .throw _

@[simp] theorem run_wrapErr {α : Type} (context : String) (p : Prog α) (w : World) :
    (wrapErr context p).run w =
      match p.run w with
      | (.ok a, w') => (.ok a, w')
      | (.error e, w') => (.error (.wrap context e), w') := by
  rcases h : p.run w with ⟨_ | _, w'⟩ <;> simp [wrapErr, h]

theorem run_wrapErr_eq_ok {α : Type} {context : String} {p : Prog α} {w w' : World} {a : α}
    (h : (wrapErr context p).run w = (.ok a, w')) : p.run w = (.ok a, w') := by
  rw [run_wrapErr] at h
  rcases hp : p.run w with ⟨_ | _, w₁⟩ <;> rw [hp] at h
  · cases h
  · exact h

end UsersService
