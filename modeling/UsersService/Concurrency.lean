import UsersService.Service
import UsersService.Cache.Coherence

/-! Concurrent callers. Each caller runs one program; the world answers one call at a time, in
the order a schedule picks the callers, so every interleaving of their SQL statements, Redis
round trips, clock readings and publisher calls is a schedule. No lock orders a cache fill after
the update it raced with: a fill that read a row before an update can cache it after the update
cached the new row, and one user's entries then disagree. What every interleaving keeps is that
each entry sits under one of its own document's keys, because every `SET` the code sends is of
a user's JSON under that user's key; this holds whatever Redis does with each round trip. -/

namespace UsersService

/-! ### The interleaving semantics -/

/-- Caller `i` makes its next call, when it has one left. -/
def stepThread (i : Nat) (w : World) (ts : List (Prog Unit)) : World × List (Prog Unit) :=
  match ts[i]? with
  | some (.call c k) => ((c.exec w).2, ts.set i (k (c.exec w).1))
  | _ => (w, ts)

/-- The callers' calls, in the order the schedule picks the callers. -/
def interleave : List Nat → World → List (Prog Unit) → World × List (Prog Unit)
  | [], w, ts => (w, ts)
  | i :: sched, w, ts => interleave sched (stepThread i w ts).1 (stepThread i w ts).2

/-- A caller that has returned. -/
def Prog.finished {α : Type} : Prog α → Bool
  | .done _ => true
  | .call _ _ => false

/-- The number of calls a program makes when run from a world. -/
def Prog.calls {α : Type} : Prog α → World → Nat
  | .done _, _ => 0
  | .call c k, w => (k (c.exec w).1).calls (c.exec w).2 + 1

/-- A caller alone, scheduled once per call, does what `Prog.run` does. -/
theorem interleave_single (p : Prog Unit) (w : World) :
    interleave (List.replicate (p.calls w) 0) w [p] = ((p.run w).2, [.done (p.run w).1]) := by
  induction p generalizing w with
  | done r => rfl
  | call c k ih =>
    rw [Prog.calls, List.replicate_succ, interleave]
    exact ih _ _

/-! ### Invariants of every interleaving -/

section Invariant

variable {P : Call → Prop} {I : World → Prop} (hstep : ∀ c w, P c → I w → I (c.exec w).2)
include hstep

/-- A property of the world that every allowed call keeps holds after a step of any caller, and
the callers still make only allowed calls. -/
theorem stepThread_inv (i : Nat) {w : World} {ts : List (Prog Unit)} (hw : I w)
    (hts : ∀ t ∈ ts, t.AllCalls P) :
    I (stepThread i w ts).1 ∧ ∀ t ∈ (stepThread i w ts).2, t.AllCalls P := by
  unfold stepThread
  split
  · rename_i c k hi
    cases hts _ (List.getElem?_mem hi) with
    | call hc hk =>
      refine ⟨hstep _ _ hc hw, fun t ht => ?_⟩
      rcases List.mem_or_eq_of_mem_set ht with ht | rfl
      exacts [hts t ht, hk _]
  · exact ⟨hw, hts⟩

/-- A property of the world that every allowed call keeps holds after every interleaving of
callers that make only allowed calls. -/
theorem interleave_inv (sched : List Nat) {w : World} {ts : List (Prog Unit)} (hw : I w)
    (hts : ∀ t ∈ ts, t.AllCalls P) : I (interleave sched w ts).1 := by
  induction sched generalizing w ts with
  | nil => exact hw
  | cons i sched ih =>
    obtain ⟨hw', hts'⟩ := stepThread_inv hstep i hw hts
    exact ih hw' hts'

end Invariant

/-! ### Well-keyed entries -/

/-- Every entry sits under one of its own document's keys. -/
def WellKeyed (cache : String → Option UserJson) : Prop :=
  ∀ k p, cache k = some p → k ∈ p.keys

/-- A command that keeps a keyspace well keyed: a `SET` of a document under one of its own keys,
or a `DEL`. -/
def RedisCmd.WritesOwnKey : RedisCmd → Prop
  | .set k p => k ∈ p.keys
  | .del _ => True

/-- A call that writes to Redis only well-keyed commands. -/
def Call.WritesOwnKeys : Call → Prop
  | .redisExec cmds => ∀ cmd ∈ cmds, cmd.WritesOwnKey
  | _ => True

theorem RedisCmd.wellKeyed_apply {cmd : RedisCmd} (h : cmd.WritesOwnKey)
    {cache : String → Option UserJson} (hc : UsersService.WellKeyed cache) :
    UsersService.WellKeyed (cmd.apply cache) := by
  intro k p hk
  cases cmd with
  | set key v =>
    simp only [RedisCmd.apply] at hk
    split at hk
    · cases hk; subst k; exact h
    · exact hc k p hk
  | del key =>
    simp only [RedisCmd.apply] at hk
    split at hk
    · cases hk
    · exact hc k p hk

theorem wellKeyed_applyMarked {cmds : List RedisCmd} (h : ∀ cmd ∈ cmds, cmd.WritesOwnKey)
    (mask : List Bool) {cache : String → Option UserJson} (hc : WellKeyed cache) :
    WellKeyed (applyMarked cmds mask cache) := by
  induction cmds generalizing mask cache with
  | nil => exact hc
  | cons cmd cmds ih =>
    have hrest := fun c hc' => h c (List.mem_cons_of_mem _ hc')
    cases mask with
    | nil => exact ih hrest [] hc
    | cons b bs =>
      refine ih hrest bs ?_
      split
      · exact RedisCmd.wellKeyed_apply (h cmd (List.mem_cons_self _ _)) hc
      · exact hc

theorem World.nextRedis_cache (w : World) : w.nextRedis.2.cache = w.cache := by
  unfold World.nextRedis
  split <;> rfl

/-- A well-keyed call keeps the keyspace well keyed, whatever Redis does with it. -/
theorem Call.wellKeyed_exec {c : Call} (h : c.WritesOwnKeys) {w : World}
    (hw : UsersService.WellKeyed w.cache) : UsersService.WellKeyed (c.exec w).2.cache := by
  cases c with
  | redisExec cmds =>
    simp only [Call.exec]
    split <;> rename_i hn
    · exact wellKeyed_applyMarked h _ (by rw [← congrArg (·.2.cache) hn, World.nextRedis_cache]; exact hw)
    · exact wellKeyed_applyMarked h _ (by rw [← congrArg (·.2.cache) hn, World.nextRedis_cache]; exact hw)
  | redisGet key =>
    simp only [Call.exec]
    split <;> rename_i hn <;> rw [← congrArg (·.2.cache) hn, World.nextRedis_cache] <;> exact hw
  | insert u =>
    simp only [Call.exec]
    split <;> exact hw
  | update u t =>
    simp only [Call.exec]
    split <;> exact hw
  | select _ | delete _ | now | publish _ _ => exact hw


/-! ### Every call of the decorator writes under its own keys -/

theorem setCmds_writeOwnKey (u : User) : ∀ cmd ∈ setCmds u, cmd.WritesOwnKey := by
  simp [setCmds, RedisCmd.WritesOwnKey, UserJson.keys]

theorem delCmds_writeOwnKey (u : User) : ∀ cmd ∈ delCmds u, cmd.WritesOwnKey := by
  simp [delCmds, RedisCmd.WritesOwnKey]

/-- Every operation of the decorator writes entries only under their documents' keys. -/
theorem DecoratorCall.writesOwnKeys (c : DecoratorCall) : c.prog.AllCalls Call.WritesOwnKeys :=
  c.allCalls (fun _ _ => trivial) (fun _ => trivial) (fun _ _ => trivial) (fun _ => trivial) trivial
    (fun _ => trivial) setCmds_writeOwnKey delCmds_writeOwnKey

/-! ### Every interleaving keeps the entries well keyed -/

theorem interleave_wellKeyed (sched : List Nat) {w : World} {ts : List (Prog Unit)}
    (hw : WellKeyed w.cache) (hts : ∀ t ∈ ts, t.AllCalls Call.WritesOwnKeys) :
    WellKeyed (interleave sched w ts).1.cache :=
  interleave_inv (I := fun w => WellKeyed w.cache) (fun _ _ hc hw => Call.wellKeyed_exec hc hw) sched
    hw hts

/-- In every interleaving of decorator operations, whatever Redis does with each round trip,
every entry sits under one of its own document's keys: `userKey p.id`, `emailKey p.email` or
`nickKey p.nickname`. -/
theorem interleaving_keeps_entries_well_keyed (sched : List Nat) (ops : List DecoratorCall)
    (w : World) (hw : WellKeyed w.cache) :
    ∀ k p, (interleave sched w (ops.map DecoratorCall.prog)).1.cache k = some p → k ∈ p.keys :=
  interleave_wellKeyed sched hw fun t ht => by
    obtain ⟨c, -, rfl⟩ := List.mem_map.mp ht
    exact c.writesOwnKeys

theorem interleaving_keeps_entries_well_keyed_from_empty :
    WellKeyed World.empty.cache ∧
      ∀ k p, (interleave [0, 0, 0] World.empty
        ([DecoratorCall.getByID ⟨List.replicate 16 0, rfl⟩].map DecoratorCall.prog)).1.cache k = some p →
          k ∈ p.keys :=
  ⟨(fun _ _ h => nomatch h), interleaving_keeps_entries_well_keyed _ _ _ fun _ _ h => nomatch h⟩

/-! ### A fill racing an update -/

/-- Entries whose documents carry the same id hold the same document, and each sits under one of
its document's keys. -/
def TripleConsistent (cache : String → Option UserJson) : Prop :=
  WellKeyed cache ∧ ∀ k k' p p', cache k = some p → cache k' = some p' → p.id = p'.id → p = p'

/-- Alice's id. -/
def aliceId : UUID := ⟨[0, 0, 0, 0, 0, 0, 0, 0, 0, 0, 0, 0, 0, 0, 0, 1], rfl⟩

/-- Alice's row. -/
def alice : User := ⟨aliceId, "Alice", "Smith", "alice", "h", "alice@example.com", "GB", 1, 1⟩

/-- Bob's row: he signed up at the same time as Alice, and changed his row since. -/
def bob : User :=
  ⟨⟨[0, 0, 0, 0, 0, 0, 0, 0, 0, 0, 0, 0, 0, 0, 0, 2], rfl⟩, "Bob", "Jones", "bob", "h",
    "bob@example.com", "GB", 1, 2⟩

/-- The store holds Alice; nothing is cached; Redis answers every round trip. -/
def raceWorld : World := ⟨⟨[alice], List.pairwise_singleton _ _⟩, fun _ => none, [], 1, []⟩

/-- A `GetByID` of Alice and an `Update` of her email, started together. -/
def raceCallers : List (Prog Unit) :=
  [(DecoratorCall.getByID aliceId).prog,
    (DecoratorCall.update { alice with email := "alice@example.org" }).prog]

/-- The read misses the cache and reads the store; the update then runs to its end; the read
then caches the row it read. -/
def raceSchedule : List Nat := [0, 0, 1, 1, 1, 1, 1, 1, 0]

/-- Both callers return, and Alice's id key holds her old row while her new email key holds the
new one. -/
theorem stale_fill_breaks_triple_consistency :
    (interleave raceSchedule raceWorld raceCallers).2.all Prog.finished = true ∧
      ¬ TripleConsistent (interleave raceSchedule raceWorld raceCallers).1.cache := by
  refine ⟨by decide, fun ⟨_, h⟩ => ?_⟩
  have := h (userKey aliceId) (emailKey "alice@example.org") alice.marshal
    { alice with email := "alice@example.org", updatedAt := 2 }.marshal (by decide) (by decide) rfl
  exact absurd this (by decide)

end UsersService
