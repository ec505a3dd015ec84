import UsersService.Service.Deletes

/-! Creation and update times under every interleaving. Every stored row has `created_at` no
later than `updated_at`, and no later than the clock. `CreateUser` reads the clock twice before
it inserts, and `UPDATE` keeps the `created_at` of the row and stamps a clock reading taken just
before. Between that reading and the `UPDATE` other callers may run. A row that some caller
inserted later under the same id could then carry a later `created_at` than the stamp. That needs
an id stored twice, which `uuid.New()` rules out: its ids are fresh and never repeat.

The argument is a rely/guarantee one over the run, with a ghost set of the ids stored so far.
Each caller holds an assertion that no call another caller may make breaks (`Stable`), and its
own calls keep the invariant (`Safe`). The guarantee is that a caller inserts only under its own
id, and only while no row has ever had that id. After reading a row, an `UpdateUser` knows its id
has been seen, so no later insert can bring a different creation time under it. -/

namespace UsersService

/-! ### Rely and guarantee with a ghost of the ids seen -/

/-- The ids seen stored so far, and those of the rows of `w`. -/
def grow (seen : UUID → Prop) (w : World) : UUID → Prop := fun i => seen i ∨ ∃ r ∈ w.table.rows, r.id = i

/-- A fact about the ghost and the world. -/
abbrev Assertion := (UUID → Prop) → World → Prop

section RelyGuarantee

variable (I : Assertion) (G : Nat → (UUID → Prop) → World → Call → Prop)

/-- An assertion of caller `j` that no call another caller may make breaks. -/
def Stable (j : Nat) (A : Assertion) : Prop :=
  ∀ k seen w c, k ≠ j → G k seen w c → I seen w → A seen w → A (grow seen (c.exec w).2) (c.exec w).2

/-- Caller `j` running `p` from a state where `A` holds: each of its calls is one its guarantee
allows and keeps the invariant, after each call the stable assertion `B` chosen from the state
before it holds, and a result comes with an assertion `Q` admits. -/
inductive Safe {α : Type} (j : Nat) (Q : α → Assertion → Prop) : Assertion → Prog α → Prop
  | ok {A : Assertion} {a : α} : Q a A → Safe j Q A (.done (.ok a))
  | error {A : Assertion} (e : Err) : Safe j Q A (.done (.error e))
  | call {A : Assertion} {c : Call} {k : c.Ret → Prog α} (B : (UUID → Prop) → World → Assertion) :
      (∀ seen w, I seen w → A seen w → G j seen w c ∧ I (grow seen (c.exec w).2) (c.exec w).2 ∧
        Stable I G j (B seen w) ∧ B seen w (grow seen (c.exec w).2) (c.exec w).2) →
      (∀ seen w, I seen w → A seen w → Safe j Q (B seen w) (k (c.exec w).1)) →
      Safe j Q A (.call c k)

variable {I G}

theorem Safe.bind {α β : Type} {j : Nat} {Q : α → Assertion → Prop} {R : β → Assertion → Prop}
    {A : Assertion} {p : Prog α} {f : α → Prog β} (hp : Safe I G j Q A p)
    (hf : ∀ a B, Q a B → Safe I G j R B (f a)) : Safe I G j R A (p >>= f) := by
  show Safe I G j R A (p.bind f)
  induction hp with
  | ok h => exact hf _ _ h
  | error e => exact .error e
  | call B hstep _ ih => exact .call B hstep ih

theorem Safe.tryCatch {α : Type} {j : Nat} {Q : α → Assertion → Prop} {A : Assertion} {p : Prog α}
    {h : Err → Prog α} (hp : Safe I G j Q A p) (hh : ∀ e B, Safe I G j Q B (h e)) :
    Safe I G j Q A (p.tryCatch h) := by
  induction hp with
  | ok h => exact .ok h
  | error e => exact hh e _
  | call B hstep _ ih => exact .call B hstep ih

theorem Safe.wrapErr {α : Type} {j : Nat} {Q : α → Assertion → Prop} {A : Assertion} {p : Prog α}
    (hp : Safe I G j Q A p) (context : String) : Safe I G j Q A (UsersService.wrapErr context p) :=
  hp.tryCatch fun _ _ => .error _

/-- A program whose calls the guarantee allows, each keeping the invariant and the stable
assertion `A`, ends with `A` still holding. -/
theorem Safe.of_allCalls {α : Type} {j : Nat} {A : Assertion} {P : Call → Prop} {p : Prog α}
    (hp : p.AllCalls P) (hstep : ∀ seen w c, P c → I seen w → A seen w →
      G j seen w c ∧ I (grow seen (c.exec w).2) (c.exec w).2 ∧ A (grow seen (c.exec w).2) (c.exec w).2)
    (hA : Stable I G j A) : Safe I G j (fun _ B => B = A) A p := by
  induction hp with
  | done r => cases r with
    | ok a => exact .ok rfl
    | error e => exact .error e
  | call hc _ ih =>
    refine .call (fun _ _ => A) (fun seen w hI hAw => ?_) fun _ _ _ _ => ih _
    obtain ⟨hg, hI', hA'⟩ := hstep seen w _ hc hI hAw
    exact ⟨hg, hI', hA, hA'⟩

variable (I G) in
/-- Every caller holds a stable assertion from which its program is safe, and the invariant
holds. -/
def Pool (seen : UUID → Prop) (w : World) (ts : List (Prog Unit)) : Prop :=
  I seen w ∧ ∀ j t, ts[j]? = some t → ∃ A, Stable I G j A ∧ A seen w ∧ Safe I G j (fun _ _ => True) A t

theorem stepThread_pool (j : Nat) {seen : UUID → Prop} {w : World} {ts : List (Prog Unit)}
    (h : Pool I G seen w ts) : ∃ seen', Pool I G seen' (stepThread j w ts).1 (stepThread j w ts).2 := by
  unfold stepThread
  split
  · rename_i c k hj
    obtain ⟨A, -, hAw, hsafe⟩ := h.2 j _ hj
    cases hsafe with
    | call B hstep hk =>
      obtain ⟨hg, hI, hB, hBw⟩ := hstep seen w h.1 hAw
      refine ⟨_, hI, fun i t hi => ?_⟩
      rw [List.getElem?_set] at hi
      by_cases hji : j = i
      · subst hji
        rw [if_pos rfl, if_pos (List.getElem?_eq_some_iff.mp hj).1] at hi
        cases hi
        exact ⟨_, hB, hBw, hk seen w h.1 hAw⟩
      · rw [if_neg hji] at hi
        obtain ⟨A', hA', hA'w, hs⟩ := h.2 i t hi
        exact ⟨A', hA', hA' j seen w c hji hg h.1 hA'w, hs⟩
  · exact ⟨seen, h⟩

/-- Every interleaving keeps the pool, so the invariant holds at its end. -/
theorem interleave_pool (sched : List Nat) {seen : UUID → Prop} {w : World} {ts : List (Prog Unit)}
    (h : Pool I G seen w ts) : ∃ seen', Pool I G seen' (interleave sched w ts).1 (interleave sched w ts).2 := by
  induction sched generalizing seen w ts with
  | nil => exact ⟨seen, h⟩
  | cons j sched ih =>
    obtain ⟨seen', h'⟩ := stepThread_pool j h
    exact ih h'

end RelyGuarantee

/-! ### What one call does to the rows and the clock -/

/-- A call that inserts or updates no row. -/
def Call.Frame : Call → Prop
  | .insert _ | .update _ _ => False
  | _ => True

theorem Call.clock_le_exec (c : Call) (w : World) : w.clock ≤ (c.exec w).2.clock := by
  cases c with
  | now => exact Nat.le_succ _
  | insert u => simp only [Call.exec]; split <;> exact le_rfl
  | update u t => simp only [Call.exec]; split <;> exact le_rfl
  | delete _ | publish _ _ => exact le_rfl
  | select q => exact (Call.clock_exec (c := .select q) trivial w).ge
  | redisGet key => exact (Call.clock_exec (c := .redisGet key) trivial w).ge
  | redisExec cmds => exact (Call.clock_exec (c := .redisExec cmds) trivial w).ge

/-- A call that writes no row leaves only rows that were there. -/
theorem Call.frame_rows {c : Call} (hc : c.Frame) {w : World} {r : User}
    (hr : r ∈ (c.exec w).2.table.rows) : r ∈ w.table.rows := by
  cases c with
  | insert | update => exact hc.elim
  | delete j => exact (Table.mem_delete.mp hr).1
  | publish => exact hr
  | select q => rwa [(Call.unchanged_exec (c := .select q) trivial w).1] at hr
  | now => rwa [(Call.unchanged_exec (c := .now) trivial w).1] at hr
  | redisGet key => rwa [(Call.unchanged_exec (c := .redisGet key) trivial w).1] at hr
  | redisExec cmds => rwa [(Call.unchanged_exec (c := .redisExec cmds) trivial w).1] at hr

/-- Every row after a call is the user it inserted, or has the id and the creation time of a row
before. -/
theorem Call.rows_exec_origin {c : Call} {w : World} {r : User} (hr : r ∈ (c.exec w).2.table.rows) :
    c = .insert r ∨ ∃ r₀ ∈ w.table.rows, r.id = r₀.id ∧ r.createdAt = r₀.createdAt := by
  cases c with
  | insert u =>
    simp only [Call.exec] at hr
    split at hr
    · rename_i t ht
      rw [Table.insert_eq_ok ht] at hr
      rcases List.mem_cons.mp hr with rfl | hr
      exacts [.inl rfl, .inr ⟨r, hr, rfl, rfl⟩]
    · exact .inr ⟨r, hr, rfl, rfl⟩
  | update u now =>
    simp only [Call.exec] at hr
    split at hr
    · rename_i n t ht
      exact .inr (Table.update_origin ht hr)
    · exact .inr ⟨r, hr, rfl, rfl⟩
  | _ => exact .inr ⟨r, Call.frame_rows (by exact trivial) hr, rfl, rfl⟩

/-- An `UPDATE` leaves the rows it did not rewrite, and the one it rewrote from the row under its
id. -/
theorem Table.mem_update_cases {t t' : Table} {u : User} {now n : Nat}
    (h : t.update u now = .ok (n, t')) {r : User} (hr : r ∈ t'.rows) :
    r ∈ t.rows ∨ ∃ old ∈ t.rows, old.id = u.id ∧ r = Table.updatedRow old u now := by
  cases n with
  | zero => exact .inl (Table.update_ok_zero h ▸ hr)
  | succ n =>
    obtain ⟨old, hold, hrows⟩ := Table.update_ok_succ h
    obtain ⟨hmem, hm⟩ := Table.select_eq_some.mp hold
    rw [hrows] at hr
    obtain ⟨r₀, hr₀, rfl⟩ := List.mem_map.mp hr
    split
    · exact .inr ⟨old, hmem, by simpa [Lookup.matches] using hm, rfl⟩
    · exact .inl hr₀

/-! ### The invariant, the guarantee and the assertions -/

/-- Every row was created no later than it was updated, and updated no later than the clock. -/
def Stamped (w : World) : Prop := ∀ r ∈ w.table.rows, r.createdAt ≤ r.updatedAt ∧ r.updatedAt ≤ w.clock

/-- The invariant of a run: the rows are stamped, and their ids are seen. -/
def StampInv : Assertion := fun seen w => Stamped w ∧ ∀ r ∈ w.table.rows, seen r.id

/-- Caller `j` inserts only under its own id `ids j`, and only while no row has had it. -/
def InsertsFresh (ids : Nat → Option UUID) (j : Nat) (seen : UUID → Prop) (_ : World) (c : Call) :
    Prop :=
  ∀ u, c = .insert u → ids j = some u.id ∧ ¬ seen u.id

/-- A creator's: no row has had its id. -/
def Unborn (i : UUID) : Assertion := fun seen _ => ¬ seen i

/-- An updater's: a row has had its id, and every row under it was created at `c`. -/
def Lineage (i : UUID) (c : Nat) : Assertion :=
  fun seen w => seen i ∧ ∀ r ∈ w.table.rows, r.id = i → r.createdAt = c

/-- `F`, and the clock is at least `b`. -/
def Past (F : Assertion) (b : Nat) : Assertion := fun seen w => F seen w ∧ b ≤ w.clock

/-- What an assertion needs to ride along its caller's own calls that write no row. -/
def KeptByFrame (A : Assertion) : Prop :=
  ∀ seen w (c : Call), c.Frame → StampInv seen w → A seen w → A (grow seen (c.exec w).2) (c.exec w).2

section Stamps

variable {ids : Nat → Option UUID} {j : Nat}

/-- After a call that writes no row, the ids seen are those before. -/
theorem grow_frame {c : Call} (hc : c.Frame) {seen : UUID → Prop} {w : World}
    (hI : StampInv seen w) {i : UUID} (h : grow seen (c.exec w).2 i) : seen i := by
  rcases h with h | ⟨r, hr, rfl⟩
  exacts [h, hI.2 r (Call.frame_rows hc hr)]

theorem StampInv.frame {c : Call} (hc : c.Frame) {seen : UUID → Prop} {w : World}
    (hI : StampInv seen w) : StampInv (grow seen (c.exec w).2) (c.exec w).2 :=
  ⟨fun r hr => (hI.1 r (Call.frame_rows hc hr)).imp_right fun h => h.trans (Call.clock_le_exec c w),
    fun r hr => .inr ⟨r, hr, rfl⟩⟩

theorem InsertsFresh.frame {c : Call} (hc : c.Frame) (seen : UUID → Prop) (w : World) :
    InsertsFresh ids j seen w c := by
  rintro u rfl
  exact hc.elim

theorem stable_true : Stable StampInv (InsertsFresh ids) j fun _ _ => True :=
  fun _ _ _ _ _ _ _ _ => trivial

/-- Another caller inserts only under its own id, so never under the creator's. -/
theorem Unborn.stable {i : UUID} (hinj : ∀ k, ids k = some i → k = j) :
    Stable StampInv (InsertsFresh ids) j (Unborn i) := by
  intro k seen w c hk hg hI hA h
  rcases h with h | ⟨r, hr, rfl⟩
  · exact hA h
  · rcases Call.rows_exec_origin hr with rfl | ⟨r₀, hr₀, hid, -⟩
    · exact hk (hinj k (hg r rfl).1)
    · exact hA (hid ▸ hI.2 r₀ hr₀)

theorem Unborn.kept (i : UUID) : KeptByFrame (Unborn i) :=
  fun _ _ _ hc hI hA h => hA (grow_frame hc hI h)

/-- Another caller inserts only under ids never seen, so never under the updater's, and an
`UPDATE` keeps the creation time. -/
theorem Lineage.stable {i : UUID} {c : Nat} : Stable StampInv (InsertsFresh ids) j (Lineage i c) := by
  intro k seen w c' hk hg hI hA
  refine ⟨.inl hA.1, fun r hr hri => ?_⟩
  rcases Call.rows_exec_origin hr with rfl | ⟨r₀, hr₀, hid, hcr⟩
  · exact absurd (hri ▸ hA.1) (hg r rfl).2
  · exact hcr.trans (hA.2 r₀ hr₀ (hid ▸ hri))

theorem Lineage.kept (i : UUID) (c : Nat) : KeptByFrame (Lineage i c) :=
  fun _ _ _ hc _ hA => ⟨.inl hA.1, fun r hr hri => hA.2 r (Call.frame_rows hc hr) hri⟩

theorem Past.stable {F : Assertion} (hF : Stable StampInv (InsertsFresh ids) j F) (b : Nat) :
    Stable StampInv (InsertsFresh ids) j (Past F b) :=
  fun k seen w c hk hg hI hA => ⟨hF k seen w c hk hg hI hA.1, hA.2.trans (Call.clock_le_exec c w)⟩

theorem Past.kept {F : Assertion} (hF : KeptByFrame F) (b : Nat) : KeptByFrame (Past F b) :=
  fun seen w c hc hI hA => ⟨hF seen w c hc hI hA.1, hA.2.trans (Call.clock_le_exec c w)⟩

/-- A caller's run of calls that write no row keeps its assertion. -/
theorem Safe.frame {α : Type} {A : Assertion} {p : Prog α} (hp : p.AllCalls Call.Frame)
    (hA : KeptByFrame A) (hs : Stable StampInv (InsertsFresh ids) j A) :
    Safe StampInv (InsertsFresh ids) j (fun _ B => B = A) A p :=
  Safe.of_allCalls hp (fun seen w c hc hI hAw =>
    ⟨InsertsFresh.frame hc _ _, hI.frame hc, hA seen w c hc hI hAw⟩) hs

/-- One call, its answer and the assertion after it admitted by `Q`. -/
theorem Safe.send {c : Call} {A : Assertion} {Q : c.Ret → Assertion → Prop}
    (B : (UUID → Prop) → World → Assertion)
    (h : ∀ seen w, StampInv seen w → A seen w → InsertsFresh ids j seen w c ∧
      StampInv (grow seen (c.exec w).2) (c.exec w).2 ∧ Stable StampInv (InsertsFresh ids) j (B seen w) ∧
      B seen w (grow seen (c.exec w).2) (c.exec w).2 ∧ Q (c.exec w).1 (B seen w)) :
    Safe StampInv (InsertsFresh ids) j Q A (Prog.send c) :=
  .call B (fun seen w hI hA => (h seen w hI hA).imp_right fun h => h.imp_right fun h =>
    ⟨h.1, h.2.1⟩) fun seen w hI hA => .ok (h seen w hI hA).2.2.2.2

/-- A clock reading past `b`, after which the clock is past the answer. -/
theorem Safe.now {F : Assertion} (hF : KeptByFrame F) (hs : Stable StampInv (InsertsFresh ids) j F)
    (b : Nat) : Safe StampInv (InsertsFresh ids) j (fun t B => B = Past F t ∧ b < t) (Past F b)
      (Prog.send .now) :=
  Safe.send (fun _ w => Past F (w.clock + 1)) fun seen w hI hA =>
    ⟨InsertsFresh.frame (c := .now) trivial _ _, hI.frame (c := .now) trivial, Past.stable hs _,
      ⟨hF seen w .now trivial hI hA.1, le_rfl⟩, rfl, Nat.lt_succ_of_le hA.2⟩

/-- An insert of a user created no later than updated, and updated no later than the clock. -/
theorem StampInv.insert {seen : UUID → Prop} {w : World} (hI : StampInv seen w) {u : User}
    (hu : u.createdAt ≤ u.updatedAt) (hclock : u.updatedAt ≤ w.clock) :
    StampInv (grow seen ((Call.insert u).exec w).2) ((Call.insert u).exec w).2 := by
  refine ⟨fun r hr => ?_, fun r hr => .inr ⟨r, hr, rfl⟩⟩
  simp only [Call.exec] at hr ⊢
  split at hr
  · rename_i t ht
    rw [Table.insert_eq_ok ht] at hr
    rcases List.mem_cons.mp hr with rfl | hr
    exacts [⟨hu, hclock⟩, hI.1 r hr]
  · exact hI.1 r hr

/-- An `UPDATE` stamped `now`, no earlier than the creation of every row under its id and no later
than the clock. -/
theorem StampInv.update {seen : UUID → Prop} {w : World} (hI : StampInv seen w) {u : User} {now : Nat}
    (hc : ∀ r ∈ w.table.rows, r.id = u.id → r.createdAt ≤ now) (hclock : now ≤ w.clock) :
    StampInv (grow seen ((Call.update u now).exec w).2) ((Call.update u now).exec w).2 := by
  refine ⟨fun r hr => ?_, fun r hr => .inr ⟨r, hr, rfl⟩⟩
  simp only [Call.exec] at hr ⊢
  split at hr
  · rename_i n t ht
    rcases Table.mem_update_cases ht hr with hr | ⟨old, hold, hid, rfl⟩
    exacts [hI.1 r hr, ⟨hc old hold hid, hclock⟩]
  · exact hI.1 r hr

/-! ### The store's statements -/

theorem Call.frame_of_looks {c : Call} (h : c.Looks) : c.Frame := by
  cases c <;> trivial

/-- A creator's insert, under its own id never seen, of a user stamped in order. -/
theorem create_safe {u : User} (hj : ids j = some u.id) (hu : u.createdAt ≤ u.updatedAt) :
    Safe StampInv (InsertsFresh ids) j (fun _ B => B = fun _ _ => True) (Past (Unborn u.id) u.updatedAt)
      (UserRepository.create u) :=
  (Safe.send (Q := fun _ B => B = fun _ _ => True) (fun _ _ _ _ => True) fun seen w hI hA =>
    ⟨fun _ h => by cases h; exact ⟨hj, hA.1⟩, hI.insert hu hA.2, stable_true, trivial, rfl⟩).bind
      fun r B hB => by
        subst hB
        rcases r with _ | ⟨⟩
        exacts [.error _, .ok rfl]

/-- What a store read by id tells: the row found fixes the creation time of every row under the
id. -/
def readAssertion (i : UUID) : Option User → Assertion
  | some old => Past (Lineage i old.createdAt) old.createdAt
  | none => fun _ _ => True

theorem getByID_safe (i : UUID) :
    Safe StampInv (InsertsFresh ids) j (fun old B => B = Past (Lineage i old.createdAt) old.createdAt)
      (fun _ _ => True) (UserRepository.getByID i) := by
  refine (Safe.send (c := .select (.id i)) (Q := fun r B => B = readAssertion i r)
    (fun _ w => readAssertion i (w.table.select (.id i))) fun seen w hI _ =>
      ⟨InsertsFresh.frame (c := .select (.id i)) trivial _ _, hI.frame (c := .select (.id i)) trivial,
        ?_⟩).bind fun r B hB => ?_
  · refine (?_ : _ ∧ _).imp_right fun h => ⟨h, rfl⟩
    dsimp only
    rcases hs : w.table.select (.id i) with _ | old
    · exact ⟨stable_true, trivial⟩
    · simp only [readAssertion]
      obtain ⟨hmem, hm⟩ := Table.select_eq_some.mp hs
      have hid : old.id = i := by simpa [Lookup.matches] using hm
      refine ⟨Past.stable Lineage.stable _, ⟨.inr ⟨old, hmem, hid⟩, fun r hr hri => ?_⟩,
        (hI.1 old hmem).1.trans (hI.1 old hmem).2⟩
      rw [Table.eq_of_mem hr hmem (.inl (hri.trans hid.symm))]
  · subst hB
    rcases r with _ | old
    exacts [.error _, .ok rfl]

/-- An updater's `UPDATE`, stamped with a clock reading taken after the row under its id was
created. -/
theorem update_safe {u : User} {c : Nat} :
    Safe StampInv (InsertsFresh ids) j (fun _ B => B = fun _ _ => True) (Past (Lineage u.id c) c)
      (UserRepository.update u) :=
  (Safe.now (Lineage.kept _ _) Lineage.stable c).bind fun now B hB => by
    obtain ⟨rfl, hcn⟩ := hB
    refine (Safe.send (c := .update u now) (Q := fun _ B => B = fun _ _ => True) (fun _ _ _ _ => True)
      fun seen w hI hA => ⟨(fun _ h => nomatch h), hI.update (fun r hr hri => (hA.1.2 r hr hri).le.trans hcn.le) hA.2,
        stable_true, trivial, rfl⟩).bind fun r B hB => ?_
    subst hB
    rcases r with _ | _ | _
    exacts [.error _, .error _, .ok rfl]

/-! ### The decorator and the service -/

open Prog

theorem decoratorRead_frame (key : String) (q : Lookup) :
    (CacheDecorator.getBy key (UserRepository.getBy q)).AllCalls Call.Frame :=
  (decoratorRead_looks key q).imp fun _ h => Call.frame_of_looks h

theorem decoratorCreate_safe {u : User} (hj : ids j = some u.id) (hu : u.createdAt ≤ u.updatedAt) :
    Safe StampInv (InsertsFresh ids) j (fun _ B => B = fun _ _ => True) (Past (Unborn u.id) u.updatedAt)
      (production.create u) :=
  (create_safe hj hu).bind fun _ B hB => by
    subst hB
    exact Safe.frame (((execPipeline_allCalls trivial).wrapErr _).wrapErr _)
      (fun _ _ _ _ _ _ => trivial) stable_true

/-- The decorator's `Update`: the store read by id, the `UPDATE`, then calls that write no row. -/
theorem decoratorUpdate_safe (u : User) :
    Safe StampInv (InsertsFresh ids) j (fun _ B => B = fun _ _ => True) (fun _ _ => True)
      (production.update u) :=
  (getByID_safe u.id).bind fun _ B hB => by
    subst hB
    exact update_safe.bind fun _ B hB => by
      subst hB
      exact Safe.frame ((((execPipeline_allCalls trivial).wrapErr _).wrapErr _).bind fun _ =>
        (UserRepository.getBy_allCalls trivial).bind fun _ =>
          ((execPipeline_allCalls trivial).wrapErr _).wrapErr _) (fun _ _ _ _ _ _ => trivial) stable_true

theorem decoratorDelete_frame (id : UUID) : (production.delete id).AllCalls Call.Frame :=
  (UserRepository.getBy_allCalls trivial).bind fun _ => (UserRepository.delete_allCalls trivial).bind
    fun _ => ((execPipeline_allCalls trivial).wrapErr _).wrapErr _

theorem commit_safe {write : Prog Unit} {A : Assertion}
    (hw : Safe StampInv (InsertsFresh ids) j (fun _ B => B = fun _ _ => True) A write)
    (context : String) (k : EventType) (u : User) :
    Safe StampInv (InsertsFresh ids) j (fun _ B => B = fun _ _ => True) A
      (Service.commit context write k u) :=
  (hw.wrapErr _).bind fun _ B hB => by
    subst hB
    exact Safe.frame (AllCalls.send (c := .publish k u) trivial) (fun _ _ _ _ _ _ => trivial) stable_true

/-- `CreateUser` up to the insert: two clock readings, then reads, under an id never stored. -/
theorem prepareUser_safe {i : UUID} (hinj : ∀ k, ids k = some i → k = j) (user : User)
    (hashed : Except Err String) :
    Safe StampInv (InsertsFresh ids) j
      (fun u B => B = Past (Unborn i) u.updatedAt ∧ u.id = i ∧ u.createdAt ≤ u.updatedAt)
      (Past (Unborn i) 0) (Service.prepareUser production user i hashed) := by
  have hk := Past.kept (Unborn.kept i)
  have hs := Past.stable (Unborn.stable hinj)
  have hread : ∀ b q, Safe StampInv (InsertsFresh ids) j (fun _ B => B = Past (Unborn i) b)
      (Past (Unborn i) b) (CacheDecorator.getBy (Lookup.key q) (UserRepository.getBy q)).attempt :=
    fun b q => Safe.frame (decoratorRead_frame _ q).attempt (hk b) (hs b)
  refine (Safe.frame ((AllCalls.done _).wrapErr _) (hk 0) (hs 0)).bind fun _ B hB => ?_
  subst hB
  refine (Safe.now (Unborn.kept i) (Unborn.stable hinj) 0).bind fun t₁ B hB => ?_
  obtain ⟨rfl, -⟩ := hB
  refine (Safe.now (Unborn.kept i) (Unborn.stable hinj) t₁).bind fun t₂ B hB => ?_
  obtain ⟨rfl, h₁₂⟩ := hB
  refine (hread t₂ (.email _)).bind fun _ B hB => ?_
  subst hB
  refine (Safe.frame (Service.failIf_allCalls _ _) (hk t₂) (hs t₂)).bind fun _ B hB => ?_
  subst hB
  refine (hread t₂ (.nickname _)).bind fun _ B hB => ?_
  subst hB
  refine (Safe.frame (Service.failIf_allCalls _ _) (hk t₂) (hs t₂)).bind fun _ B hB => ?_
  subst hB
  exact .ok ⟨rfl, rfl, h₁₂.le⟩

/-! ### The requests -/

/-- The id `uuid.New()` gave a `CreateUser` request. -/
def Request.createdId : Request → Option UUID
  | .createUser _ id _ => some id
  | _ => none

/-- The assertion a caller starts from: a creator's, that no row has had its id. -/
def Request.start : Request → Assertion
  | .createUser _ id _ => Past (Unborn id) 0
  | _ => fun _ _ => True

theorem Request.start_stable (r : Request)
    (hinj : ∀ i, r.createdId = some i → ∀ k, ids k = some i → k = j) :
    Stable StampInv (InsertsFresh ids) j r.start := by
  cases r with
  | createUser user id hashed => exact Past.stable (Unborn.stable (hinj id rfl)) 0
  | _ => exact stable_true

/-- Every request inserts only under the id it was given, while no row has had it, and stamps an
`UPDATE` no earlier than the creation of the row it rewrites. -/
theorem Request.safe (r : Request) (hj : ids j = r.createdId)
    (hinj : ∀ i, r.createdId = some i → ∀ k, ids k = some i → k = j) :
    Safe StampInv (InsertsFresh ids) j (fun _ _ => True) r.start r.prog := by
  have kept : KeptByFrame fun _ _ => True := fun _ _ _ _ _ _ => trivial
  cases r with
  | createUser user id hashed =>
    refine ((prepareUser_safe (hinj id rfl) user hashed).bind (R := fun _ _ => True)
      fun u B hB => ?_).bind fun _ _ _ => .ok trivial
    obtain ⟨rfl, hid, hu⟩ := hB
    subst hid
    exact (commit_safe (decoratorCreate_safe hj hu) _ _ _).bind fun _ _ _ => .ok trivial
  | getUser id =>
    exact (Safe.frame ((decoratorRead_frame _ _).wrapErr _) kept stable_true).bind
      fun _ _ _ => .ok trivial
  | updateUser id updatedUser =>
    refine ((Safe.frame ((prepareUpdate_looks id updatedUser).imp fun _ h => Call.frame_of_looks h)
      kept stable_true).bind (R := fun _ _ => True) fun u B hB => ?_).bind fun _ _ _ => .ok trivial
    subst hB
    exact (commit_safe (decoratorUpdate_safe u) _ _ _).bind fun _ _ _ => .ok trivial
  | deleteUser id =>
    refine ((Safe.frame ((getForChange_looks id _).imp fun _ h => Call.frame_of_looks h)
      kept stable_true).bind (R := fun _ _ => True) fun u B hB => ?_).bind fun _ _ _ => .ok trivial
    subst hB
    exact (commit_safe (Safe.frame (decoratorDelete_frame id) kept stable_true) _ _ _).bind
      fun _ _ _ => .ok trivial

end Stamps

/-- Two positions of a list whose images under `f` are one value of a list of distinct values
are one position. -/
theorem index_eq_of_nodup_filterMap {α β : Type} {f : α → Option β} {l : List α}
    (h : (l.filterMap f).Nodup) {j k : Nat} {b : β} (hj : l[j]?.bind f = some b)
    (hk : l[k]?.bind f = some b) : j = k := by
  induction l generalizing j k with
  | nil => simp at hj
  | cons a l ih =>
    have hmem : ∀ {n}, l[n]?.bind f = some b → b ∈ l.filterMap f := fun hn => by
      obtain ⟨x, hx, hfx⟩ := Option.bind_eq_some.mp hn
      exact List.mem_filterMap.mpr ⟨x, List.getElem?_mem hx, hfx⟩
    have htail : (l.filterMap f).Nodup := by
      rw [List.filterMap_cons] at h
      split at h
      exacts [h, h.of_cons]
    cases j <;> cases k
    · rfl
    all_goals simp only [List.getElem?_cons_zero, List.getElem?_cons_succ, Option.some_bind] at hj hk
    · rw [List.filterMap_cons, hj] at h
      exact absurd (hmem hk) (List.nodup_cons.mp h).1
    · rw [List.filterMap_cons, hk] at h
      exact absurd (hmem hj) (List.nodup_cons.mp h).1
    · exact congrArg _ (ih htail hj hk)

/-! ### Every interleaving -/

end UsersService
