import UsersService.Service.SignUps
import UsersService.Service.Interleaving

/-! The events the service hands the publisher, over every interleaving of concurrent requests.
A mutation calls the publisher once, as its last call, and only after its store write and the
cache calls after it succeeded; a request that fails, and a `GetUser`, never call it. So, whatever
Redis does with each round trip, once every caller has returned the event log has grown by one
event per request that succeeded, of the request's kind. The argument is thread-local: each
caller carries a flag, set when its event is out (`Prog.Announces`), and the events appended to
the log are, up to order, those of the flagged callers (`Heralds`). -/

namespace UsersService

/-! ### Calls to the publisher -/

/-- The kind of event a call hands the publisher, if it is a call to the publisher. -/
def Call.publishes : Call → Option EventType
  | .publish kind _ => some kind
  | _ => none

/-- A call that does not reach the publisher. -/
def Call.Quiet (c : Call) : Prop := c.publishes = none

/-- A call that does not reach the publisher leaves the event log alone. -/
theorem Call.published_exec {c : Call} (hc : c.Quiet) (w : World) :
    (c.exec w).2.published = w.published := by
  cases c with
  | publish => cases hc
  | insert u => simp only [Call.exec]; split <;> rfl
  | update u t => simp only [Call.exec]; split <;> rfl
  | select | delete | now => rfl
  | redisGet key => exact (Call.unchanged_exec (c := .redisGet key) trivial w).2
  | redisExec cmds => exact (Call.unchanged_exec (c := .redisExec cmds) trivial w).2

/-! ### Programs that announce their success -/

namespace Prog

variable {α : Type}

/-- Along every path the program hands the publisher one event, of kind `kind`, exactly when it
succeeds, and nothing after it; with `kind = none` it never reaches the publisher. `sent` says
whether the event is already out. -/
inductive Announces (kind : Option EventType) : Bool → Prog α → Prop
  | ok (a : α) : Announces kind kind.isSome (done (.ok a))
  | error (e : Err) : Announces kind false (done (.error e))
  | publish {k : EventType} {u : User} {cont : Unit → Prog α} (hk : kind = some k)
      (h : ∀ r, Announces kind true (cont r)) : Announces kind false (call (.publish k u) cont)
  | call {c : Call} {cont : c.Ret → Prog α} {sent : Bool} (hc : c.Quiet)
      (h : ∀ r, Announces kind sent (cont r)) : Announces kind sent (call c cont)

namespace Announces

variable {kind : Option EventType}

/-- Calls that stay away from the publisher, then a program that announces its success. -/
theorem bind_quiet {β : Type} {p : Prog β} {f : β → Prog α} (hp : p.AllCalls Call.Quiet)
    (hf : ∀ b, Announces kind false (f b)) : Announces kind false (p >>= f) := by
  show Announces kind false (p.bind f)
  induction hp with
  | done r => cases r with
    | error e => exact .error e
    | ok b => exact hf b
  | call hc _ ih => exact .call hc ih

/-- A program that never reaches the publisher announces nothing. -/
theorem quiet {p : Prog α} (hp : p.AllCalls Call.Quiet) : Announces none false p := by
  induction hp with
  | done r => cases r with
    | error e => exact .error e
    | ok a => exact .ok a
  | call hc _ ih => exact .call hc ih

/-- Dropping the result changes no announcement. -/
theorem discard {sent : Bool} {p : Prog α} (hp : Announces kind sent p) :
    Announces kind sent (p >>= fun _ => pure () : Prog Unit) := by
  show Announces kind sent (p.bind _)
  induction hp with
  | ok a => exact .ok ()
  | error e => exact .error e
  | publish hk _ ih => exact .publish hk ih
  | call hc _ ih => exact .call hc ih

/-- The end of every mutation: a write that stays away from the publisher, then its event. -/
theorem commit {write : Prog Unit} (hw : write.AllCalls Call.Quiet) (context : String)
    (k : EventType) (u : User) (a : α) :
    Announces (some k) false (Service.commit context write k u >>= fun _ => pure a) := by
  rw [Service.commit, Prog.bind_assoc]
  exact bind_quiet (hw.wrapErr context) fun _ => .publish rfl fun _ => .ok a

end Announces

end Prog

/-! ### The requests -/

/-- A request a caller makes to the service: a mutation, or `GetUser`. -/
inductive Request where
  | createUser (user : User) (id : UUID) (hashed : Except Err String)
  | getUser (id : UUID)
  | updateUser (id : UUID) (updatedUser : User)
  | deleteUser (id : UUID)

/-- The caller's program, over the production repository, its result dropped. -/
def Request.prog : Request → Prog Unit
  | .createUser user id hashed => Service.createUser production user id hashed >>= fun _ => pure ()
  | .getUser id => Service.getUser production id >>= fun _ => pure ()
  | .updateUser id updatedUser => Service.updateUser production id updatedUser >>= fun _ => pure ()
  | .deleteUser id => Service.deleteUser production id >>= fun _ => pure ()

/-- The kind of event a request announces when it succeeds. -/
def Request.kind : Request → Option EventType
  | .createUser .. => some .created
  | .getUser _ => none
  | .updateUser .. => some .updated
  | .deleteUser _ => some .deleted

theorem Call.Reads.quiet {c : Call} (h : c.Reads) : c.Quiet := by
  cases c <;> first | rfl | exact h.elim

theorem DecoratorCall.quiet (c : DecoratorCall) : c.prog.AllCalls Call.Quiet :=
  c.allCalls (fun _ _ => rfl) (fun _ => rfl) (fun _ _ => rfl) (fun _ => rfl) rfl (fun _ => rfl)
    (fun _ => rfl) fun _ => rfl

open Prog in
/-- Each request announces its success with one event of its kind. -/
theorem Request.announces : (r : Request) → r.prog.Announces r.kind false
  | .createUser user id hashed =>
    .discard (.bind_quiet ((prepareUser_reads user id hashed).imp fun _ => Call.Reads.quiet)
      fun u => .commit (DecoratorCall.create u).quiet _ _ _ u)
  | .getUser id =>
    .discard (.quiet (((decoratorRead_looks _ (.id id)).imp fun _ h => h.reads.quiet).wrapErr _))
  | .updateUser id updatedUser =>
    .discard (.bind_quiet ((prepareUpdate_looks id updatedUser).imp fun _ h => h.reads.quiet)
      fun u => .commit (DecoratorCall.update u).quiet _ _ _ u)
  | .deleteUser id =>
    .discard (.bind_quiet ((getForChange_looks id _).imp fun _ h => h.reads.quiet)
      fun u => .commit (DecoratorCall.delete id).quiet _ _ u ())

/-! ### Every interleaving -/

/-- A caller that has returned with success. -/
def Prog.succeeded {α : Type} : Prog α → Bool
  | .done (.ok _) => true
  | _ => false

/-- The kinds of event the callers whose flag is set announce, in the callers' order. -/
def announced : List (Option EventType) → List Bool → List EventType
  | k :: ks, s :: ss => (if s then k.toList else []) ++ announced ks ss
  | _, _ => []

theorem announced_replicate_false (kinds : List (Option EventType)) (n : Nat) :
    announced kinds (List.replicate n false) = [] := by
  induction kinds generalizing n with
  | nil => rfl
  | cons k ks ih => cases n <;> simp [announced, ih]

/-- A caller that sends its event adds its kind to what the callers announced. -/
theorem announced_set {kinds : List (Option EventType)} {sent : List Bool} {j : Nat}
    {k : EventType} (hk : kinds[j]? = some (some k)) (hs : sent[j]? = some false) :
    (announced kinds (sent.set j true)).Perm (announced kinds sent ++ [k]) := by
  induction kinds generalizing sent j with
  | nil => cases hk
  | cons k₀ ks ih =>
    cases sent with
    | nil => cases hs
    | cons s ss =>
      cases j with
      | zero =>
        simp only [List.getElem?_cons_zero, Option.some.injEq] at hk hs
        subst hk hs
        simpa [announced] using (List.perm_append_singleton k (announced ks ss)).symm
      | succ j =>
        simp only [List.getElem?_cons_succ] at hk hs
        simpa [announced, List.append_assoc] using (ih hk hs).append_left _

/-- Flags that agree wherever the caller has an event to announce announce the same. -/
theorem announced_congr {kinds : List (Option EventType)} {sent flags : List Bool}
    (hlen : sent.length = flags.length)
    (h : ∀ (i : Nat) (k : EventType) (s b : Bool), kinds[i]? = some (some k) → sent[i]? = some s → flags[i]? = some b → s = b) :
    announced kinds sent = announced kinds flags := by
  induction kinds generalizing sent flags with
  | nil => rfl
  | cons k ks ih =>
    cases sent with
    | nil =>
      cases flags with
      | nil => rfl
      | cons => cases hlen
    | cons s ss =>
      cases flags with
      | nil => cases hlen
      | cons b bs =>
        have hhead : (if s then k.toList else []) = (if b then k.toList else []) := by
          cases k with
          | none => simp
          | some k =>
            rw [h 0 k s b (List.getElem?_cons_zero ..) (List.getElem?_cons_zero ..)
              (List.getElem?_cons_zero ..)]
        have htail := ih (Nat.succ.inj hlen) fun i k s b hk hs hb => h (i + 1) k s b
          (by rwa [List.getElem?_cons_succ]) (by rwa [List.getElem?_cons_succ])
          (by rwa [List.getElem?_cons_succ])
        simp only [announced, hhead, htail]

/-- The callers' flags: each caller announces its success from where it is, and the events
appended to the log since `published₀` are, up to order, those the flagged callers announced. -/
structure Heralds (kinds : List (Option EventType)) (published₀ : List (EventType × User))
    (w : World) (ts : List (Prog Unit)) (sent : List Bool) : Prop where
  length : sent.length = ts.length
  announces : ∀ (i : Nat) (t : Prog Unit), ts[i]? = some t →
    ∃ s k, sent[i]? = some s ∧ kinds[i]? = some k ∧ t.Announces k s
  log : ∃ events, w.published = published₀ ++ events ∧
    (events.map Prod.fst).Perm (announced kinds sent)

section Heralds

variable {kinds : List (Option EventType)} {published₀ : List (EventType × User)}

/-- A step of any caller keeps the callers' flags, with the caller's flag set when its call was
to the publisher. -/
theorem stepThread_heralds (j : Nat) {w : World} {ts : List (Prog Unit)} {sent : List Bool}
    (h : Heralds kinds published₀ w ts sent) :
    ∃ sent', Heralds kinds published₀ (stepThread j w ts).1 (stepThread j w ts).2 sent' := by
  unfold stepThread
  split
  · rename_i c cont hj
    obtain ⟨s, k, hs, hk, ha⟩ := h.announces j _ hj
    have hlt : j < ts.length := (List.getElem?_eq_some_iff.mp hj).1
    have hothers : ∀ {i t} (sent' : List Bool), j ≠ i → (ts.set j (cont (c.exec w).1))[i]? = some t →
        (∀ s', sent[i]? = some s' → sent'[i]? = some s') →
        ∃ s k, sent'[i]? = some s ∧ kinds[i]? = some k ∧ t.Announces k s := fun sent' hji hi hsent => by
      rw [List.getElem?_set_ne hji] at hi
      obtain ⟨s', k', hs', hk', ha'⟩ := h.announces _ _ hi
      exact ⟨s', k', hsent s' hs', hk', ha'⟩
    cases ha with
    | publish hkind hcont =>
      rename_i k' u _
      refine ⟨sent.set j true, ⟨by rw [List.length_set, h.length, List.length_set], fun i t hi => ?_, ?_⟩⟩
      · by_cases hji : j = i
        · subst hji
          rw [List.getElem?_set_self hlt] at hi
          cases hi
          exact ⟨true, k, List.getElem?_set_self (h.length ▸ hlt), hk, hcont _⟩
        · exact hothers _ hji hi fun s' hs' => by rwa [List.getElem?_set_ne hji]
      · obtain ⟨events, hpub, hperm⟩ := h.log
        refine ⟨events ++ [(k', u)], ?_, ?_⟩
        · show w.published ++ [(k', u)] = _
          rw [hpub, List.append_assoc]
        · rw [List.map_append]
          exact (hperm.append_right _).trans (announced_set (hkind ▸ hk) hs).symm
    | call hc hcont =>
      refine ⟨sent, ⟨by rw [h.length, List.length_set], fun i t hi => ?_, ?_⟩⟩
      · by_cases hji : j = i
        · subst hji
          rw [List.getElem?_set_self hlt] at hi
          cases hi
          exact ⟨s, k, hs, hk, hcont _⟩
        · exact hothers _ hji hi fun _ => id
      · obtain ⟨events, hpub, hperm⟩ := h.log
        exact ⟨events, by rw [Call.published_exec hc, hpub], hperm⟩
  · exact ⟨sent, h⟩

theorem interleave_heralds (sched : List Nat) {w : World} {ts : List (Prog Unit)} {sent : List Bool}
    (h : Heralds kinds published₀ w ts sent) :
    ∃ sent', Heralds kinds published₀ (interleave sched w ts).1 (interleave sched w ts).2 sent' := by
  induction sched generalizing w ts sent with
  | nil => exact ⟨sent, h⟩
  | cons j sched ih =>
    obtain ⟨sent', h'⟩ := stepThread_heralds j h
    exact ih h'

end Heralds

/-- A caller that has returned has its flag set exactly when it succeeded, if it has an event to
announce. -/
theorem Prog.Announces.returned {α : Type} {k : EventType} {s : Bool} {t : Prog α}
    (h : t.Announces (some k) s) (ht : t.finished = true) : s = t.succeeded := by
  cases h with
  | ok => rfl
  | error => rfl
  | publish => cases ht
  | call => cases ht

/-- Under every interleaving of concurrent requests to the service, whatever Redis does with each
round trip and whatever the cache holds: once every caller has returned, the events handed to the
publisher are, up to order, one per request that succeeded, of its kind (`created`, `updated` or
`deleted`), and none for a request that failed or for a `GetUser`. -/
theorem every_success_announced_once (sched : List Nat) (w : World) (reqs : List Request) :
    let run := interleave sched w (reqs.map Request.prog)
    run.2.all Prog.finished = true →
    ∃ events, run.1.published = w.published ++ events ∧
      (events.map Prod.fst).Perm (announced (reqs.map Request.kind) (run.2.map Prog.succeeded)) := by
  intro run hdone
  have h₀ : Heralds (reqs.map Request.kind) w.published w (reqs.map Request.prog)
      (List.replicate reqs.length false) := by
    refine ⟨by simp, fun i t hi => ?_, [], by simp, by simp [announced_replicate_false]⟩
    rw [List.getElem?_map] at hi
    obtain ⟨r, hr, rfl⟩ := Option.map_eq_some'.mp hi
    have hlt : i < reqs.length := (List.getElem?_eq_some_iff.mp hr).1
    exact ⟨false, r.kind, by simp [hlt], by simp [hr], r.announces⟩
  obtain ⟨sent, h⟩ := interleave_heralds sched h₀
  obtain ⟨events, hpub, hperm⟩ := h.log
  refine ⟨events, hpub, hperm.trans (List.Perm.of_eq (announced_congr (by simp [h.length])
    fun i k s b hk hs hb => ?_))⟩
  rw [List.getElem?_map] at hb
  obtain ⟨t, ht, rfl⟩ := Option.map_eq_some'.mp hb
  obtain ⟨s', k', hs', hk', ha⟩ := h.announces i t ht
  cases hs.symm.trans hs'
  cases hk.symm.trans hk'
  exact ha.returned (List.all_eq_true.mp hdone t (List.getElem?_mem ht))


/-- The twins' sign-ups, as requests. -/
def twinRequests : List Request := twinSignUps.map fun s => .createUser s.user s.id s.hashed

/-- Both sign-ups return; only Alice's succeeds, and one `created` event is handed over. -/
theorem every_success_announced_once_for_twins :
    let run := interleave twinSchedule World.empty (twinRequests.map Request.prog)
    run.2.all Prog.finished = true ∧
      announced (twinRequests.map Request.kind) (run.2.map Prog.succeeded) = [.created] ∧
      ∃ events, run.1.published = World.empty.published ++ events ∧
        (events.map Prod.fst).Perm (announced (twinRequests.map Request.kind) (run.2.map Prog.succeeded)) :=
  ⟨by decide, rfl, every_success_announced_once _ _ _ (by decide)⟩

end UsersService
