import UsersService.Service.Runs

/-! What the service answers in the states its runs stay in when Redis answers every round trip:
the cache coherent with the store. A caller learns from an answer whether it succeeded and, if
not, the sentinel at the bottom of its error, which is all `errors.Is` and both
`handleServiceError`s look at. For every operation that verdict is the one a plain directory
gives from the store's rows alone, so the cache never changes an answer. A sign-up is refused
for a taken email, then a taken nickname (the service's own lookups), then a taken id (the
primary key). An update is refused for an unknown id, then for another user's email (the
service's lookup), then for another user's nickname, which only the store's UNIQUE constraint
checks. A read or a deletion is refused for an unknown id. And `GetUser` answers the profile a
consumer replaying the event stream holds for the id. -/

namespace UsersService

open Prog

/-! ### The directory the service stands for -/

/-- What a caller can tell from an answer: success, or the sentinel at the bottom of the error. -/
def verdict {α : Type} : Except Err α → Except Err Unit
  | .ok _ => .ok ()
  | .error e => .error e.cause

@[simp] theorem verdict_ok {α : Type} (a : α) : verdict (.ok a : Except Err α) = .ok () := rfl

@[simp] theorem verdict_error {α : Type} (e : Err) :
    verdict (.error e : Except Err α) = .error e.cause := rfl

namespace Directory

variable (t : Table)

/-- A sign-up: refused with bcrypt's error, then for a taken email, a taken nickname and a taken
id, in that order. -/
def createVerdict (user : User) (id : UUID) (hashed : Except Err String) : Except Err Unit :=
  match hashed with
  | .error e => .error e.cause
  | .ok _ =>
    if (t.select (.email user.email)).isSome then .error .emailTaken
    else if (t.select (.nickname user.nickname)).isSome then .error .nicknameTaken
    else if (t.select (.id id)).isSome then .error (.sql Violation.pkey.text)
    else .ok ()

/-- A read or a deletion: refused for an id no user has. -/
def findVerdict (id : UUID) : Except Err Unit :=
  if (t.select (.id id)).isSome then .ok () else .error .notFound

/-- An update: refused for an unknown id, then when the merged email, and then the merged
nickname, is another user's. -/
def updateVerdict (id : UUID) (r : User) : Except Err Unit :=
  match t.select (.id id) with
  | none => .error .notFound
  | some old =>
    if (t.select (.email (Service.mergeField old.email r.email))).any (·.id != id) then
      .error .emailTaken
    else if (t.select (.nickname (Service.mergeField old.nickname r.nickname))).any (·.id != id) then
      .error .nicknameTaken
    else .ok ()

end Directory

/-! ### Lookups in the table -/

namespace Table

variable {t : Table} {u old : User} {now : Nat}

/-- Some row of another id than `i` matches a lookup exactly when the row it finds is another's. -/
theorem any_others (t : Table) (q : Lookup) (i : UUID) :
    (t.rows.filter (·.id != i)).any q.matches = (t.select q).any (·.id != i) := by
  rw [List.any_filter]
  rcases hs : t.select q with _ | r
  · simpa [select_eq_none] using fun x hx _ => select_eq_none.mp hs x hx
  · obtain ⟨hr, hq⟩ := select_eq_some.mp hs
    refine Bool.eq_iff_iff.mpr ⟨fun h => ?_, fun h => List.any_eq_true.mpr ⟨r, hr, by simpa [hq] using h⟩⟩
    obtain ⟨x, hx, hxi⟩ := List.any_eq_true.mp h
    simp only [Bool.and_eq_true] at hxi
    show (r.id != i) = true
    rw [eq_of_matches hr hx hq hxi.2]
    exact hxi.1

/-- An update of a stored row is refused for another row's nickname, then another row's email,
and affects one row otherwise. -/
theorem update_map_fst (hold : t.select (.id u.id) = some old) :
    (t.update u now).map Prod.fst =
      if (t.select (.nickname u.nickname)).any (·.id != u.id) then .error .nickname
      else if (t.select (.email u.email)).any (·.id != u.id) then .error .email
      else .ok 1 := by
  have hn : (t.rows.filter (·.id != u.id)).any (·.nickname == u.nickname) = _ :=
    any_others t (.nickname u.nickname) u.id
  have he : (t.rows.filter (·.id != u.id)).any (·.email == u.email) = _ :=
    any_others t (.email u.email) u.id
  have hi : (t.rows.filter (·.id != u.id)).any (·.id == u.id) = false := by
    simp [List.any_filter]
  unfold update
  simp only [hold]
  split <;> rename_i hv <;>
    simp only [violation, updatedRow, hi, hn, he, Bool.false_eq_true, if_false] at hv <;>
    split_ifs at hv ⊢ <;> cases hv <;> rfl

/-- A row that a lookup by one of its own columns finds is the row itself. -/
theorem select_own {r : User} (hr : r ∈ t.rows) {q : Lookup} (hq : q.matches r) :
    t.select q = some r := by
  rcases hs : t.select q with _ | r'
  · exact absurd hq (by simp [select_eq_none.mp hs r hr])
  · obtain ⟨hr', hq'⟩ := select_eq_some.mp hs
    rw [eq_of_matches hr' hr hq' hq]

/-- A row whose id, nickname or email is taken is refused, the primary key first. -/
theorem insert_of_taken_id (h : (t.select (.id u.id)).isSome) : t.insert u = .error .pkey := by
  obtain ⟨r, hs⟩ := Option.isSome_iff_exists.mp h
  obtain ⟨hr, hi⟩ := select_eq_some.mp hs
  have hv : violation t.rows u = some .pkey := by
    unfold violation
    exact if_pos (List.any_eq_true.mpr ⟨r, hr, hi⟩)
  unfold insert
  split <;> rename_i hv' <;> rw [hv] at hv' <;> cases hv'
  rfl

end Table

/-! ### Reads through the decorator -/

/-- From `w` to `w₁` by reads only: the invariant holds on, and the store and the event log are
those of `w`. -/
structure ReadOnly (w w₁ : World) : Prop where
  holds : Holds w₁
  unchanged : Unchanged w w₁

section Reads

variable {w : World} (h : Holds w)
include h

/-- A read through the decorator answers what the store answers on every field of the JSON. -/
theorem read_of_holds (q : Lookup) :
    ∃ res w₁, (CacheDecorator.getBy q.key (UserRepository.getBy q)).run w = (res, w₁) ∧
      res.map User.marshal =
        ((w.table.select q).elim (.error .notFound) .ok : Except Err User).map User.marshal ∧
      ReadOnly w w₁ := by
  have hagree := getBy_agrees h.coherent h.answering q
  have hkeep := keepsCoherent_getBy q w h.coherent h.answering
  have hframe := ((decoratorRead_looks q.key q).looks_frame w).1
  rcases hrun : (CacheDecorator.getBy q.key (UserRepository.getBy q)).run w with ⟨res, w₁⟩
  rw [hrun, UserRepository.run_getBy] at hagree
  rw [hrun] at hkeep hframe
  exact ⟨res, w₁, rfl, hagree, ⟨hkeep.1, hkeep.2⟩, hframe⟩

theorem read_found {q : Lookup} {r : User} (hs : w.table.select q = some r) :
    ∃ u w₁, (CacheDecorator.getBy q.key (UserRepository.getBy q)).run w = (.ok u, w₁) ∧
      u.marshal = r.marshal ∧ ReadOnly w w₁ := by
  obtain ⟨res, w₁, hrun, hres, hw⟩ := read_of_holds h q
  rw [hs] at hres
  cases res with
  | error => cases hres
  | ok u => exact ⟨u, w₁, hrun, Except.ok.inj hres, hw⟩

theorem read_missing {q : Lookup} (hs : w.table.select q = none) :
    (CacheDecorator.getBy q.key (UserRepository.getBy q)).run w = (.error .notFound, w) :=
  getBy_miss_of_nil h.answering h.coherent (Table.select_eq_none.mp hs)

end Reads

/-! ### `GetUser` and the event stream -/

/-- What `GetUser` answers, read against a directory of profiles: the profile of the user it
returns, or no entry and `ErrNotFound`. -/
def AnswersFrom (view : UUID → Option Profile) (id : UUID) : Except Err User → Prop
  | .ok u => view id = some u.marshal.profile
  | .error e => view id = none ∧ e.cause = .notFound

theorem getUser_answers {w : World} (h : Holds w) (id : UUID) :
    AnswersFrom w.table.profiles id ((Service.getUser production id).run w).1 ∧
      ReadOnly w ((Service.getUser production id).run w).2 := by
  rw [Service.getUser, show production.getByID id =
    CacheDecorator.getBy (Lookup.id id).key (UserRepository.getBy (.id id)) from rfl, run_wrapErr]
  rcases hs : w.table.select (.id id) with _ | r
  · rw [read_missing h hs]
    exact ⟨⟨by simp [Table.profiles, hs], rfl⟩, h, Unchanged.refl w⟩
  · obtain ⟨u, w₁, hrun, hu, hw⟩ := read_found h hs
    rw [hrun]
    exact ⟨by simp [AnswersFrom, Table.profiles, hs, hu], hw⟩

/-! ### The verdict of each operation -/

/-- A commit, then the result: the verdict of the store write. -/
theorem verdict_commit {α : Type} (context : String) (write : Prog Unit) (kind : EventType) (u : User)
    (a : α) (w : World) :
    verdict ((Service.commit context write kind u >>= fun _ => pure a).run w).1 =
      verdict (write.run w).1 := by
  rcases hw : write.run w with ⟨e | _, w'⟩ <;> simp only [Service.commit, run_bind, run_wrapErr, hw] <;> rfl

section Verdicts

variable {w : World} (h : Holds w)
include h

/-- An update through the decorator of a stored id is refused for another row's nickname, then
another row's email. -/
theorem decoratorUpdate_verdict {u old : User} (hold : w.table.select (.id u.id) = some old) :
    verdict ((production.update u).run w).1 =
      if (w.table.select (.nickname u.nickname)).any (·.id != u.id) then .error .nicknameTaken
      else if (w.table.select (.email u.email)).any (·.id != u.id) then .error .emailTaken
      else .ok () := by
  have hmap : (w.table.update u (w.clock + 1)).map Prod.fst = _ := Table.update_map_fst hold
  rw [show production.update u = CacheDecorator.update newUserRepository u from rfl,
    run_update_of_nil h.answering, hold]
  rcases hu : w.table.update u (w.clock + 1) with v | ⟨_ | n, t⟩ <;> rw [hu] at hmap <;> dsimp only
  · split_ifs at hmap ⊢ <;> cases hmap <;> rfl
  · split_ifs at hmap <;> cases hmap
  · obtain ⟨_, _, hs⟩ := Table.select_update hu
    simp only [hs]
    split_ifs at hmap ⊢ <;> first | rfl | cases hmap

/-- `UpdateUser` up to the store write, from a stored row `old` of `id`: refused exactly when the
merged email is another user's, and otherwise the merged user, by reads only. -/
theorem prepareUpdate_verdict {id : UUID} {old : User} (hs : w.table.select (.id id) = some old)
    (r : User) :
    ∃ res w₁, (Service.prepareUpdate production id r).run w = (res, w₁) ∧ ReadOnly w w₁ ∧
      match res with
      | .ok m => m.id = id ∧ m.nickname = Service.mergeField old.nickname r.nickname ∧
          m.email = Service.mergeField old.email r.email ∧
          (w.table.select (.email m.email)).any (·.id != id) = false
      | .error e => e = .emailTaken ∧
          (w.table.select (.email (Service.mergeField old.email r.email))).any (·.id != id) = true := by
  obtain ⟨hold, hid⟩ := Table.select_eq_some.mp hs
  have hoid : old.id = id := by simpa [Lookup.matches] using hid
  obtain ⟨u₀, w₁, hrun, hu₀, hw₁⟩ := read_found h hs
  have hf : u₀.id = id ∧ u₀.email = old.email ∧ u₀.nickname = old.nickname :=
    ⟨(congrArg UserJson.id hu₀).trans hoid, congrArg UserJson.email hu₀,
      congrArg UserJson.nickname hu₀⟩
  have hget : (Service.getForChange production id "failed to get user for update").run w =
      (.ok u₀, w₁) := by
    rw [Service.getForChange, run_tryCatch, show production.getByID id =
      CacheDecorator.getBy (Lookup.id id).key (UserRepository.getBy (.id id)) from rfl, hrun]
  have hnick : Service.mergeField u₀.nickname r.nickname = Service.mergeField old.nickname r.nickname :=
    by rw [hf.2.2]
  have hemail : ∀ {q : Lookup}, q = .email r.email →
      production.getByEmail r.email = CacheDecorator.getBy q.key (UserRepository.getBy q) :=
    fun hq => hq ▸ rfl
  rw [Service.prepareUpdate, run_bind, hget]
  dsimp only
  split_ifs with hcond
  · have hmerge : Service.mergeField old.email r.email = r.email := by
      rw [← hf.2.1]
      exact if_pos hcond
    rw [hmerge]
    rcases hse : w.table.select (.email r.email) with _ | row
    · have hmiss := read_missing hw₁.holds (q := .email r.email) (by rw [hw₁.unchanged.1, hse])
      simp only [run_bind, Service.checkEmail, run_attempt, hemail rfl, hmiss, run_pure]
      exact ⟨_, _, rfl, hw₁, hf.1, hnick, rfl, by simp [hse]⟩
    · obtain ⟨ex, w₂, hrun₂, hex, hw₂⟩ :=
        read_found hw₁.holds (q := .email r.email) (by rw [hw₁.unchanged.1, hse])
      have hexid : ex.id = row.id := congrArg UserJson.id hex
      have hw₂' : ReadOnly w w₂ := ⟨hw₂.holds, hw₁.unchanged.trans hw₂.unchanged⟩
      simp only [run_bind, Service.checkEmail, run_attempt, hemail rfl, hrun₂, hexid]
      by_cases hne : row.id = id
      · simp only [hne, ne_eq, not_true_eq_false, decide_False, Service.failIf, run_pure]
        exact ⟨_, _, rfl, hw₂', hf.1, hnick, rfl, by simp [hse, hne]⟩
      · simp only [hne, ne_eq, not_false_eq_true, decide_True, Service.failIf, run_throw]
        exact ⟨_, _, rfl, hw₂', rfl, by simp [hse, hne]⟩
  · have hmerge : Service.mergeField old.email r.email = old.email := by
      rw [← hf.2.1]
      exact if_neg hcond
    have hown : w.table.select (.email old.email) = some old :=
      Table.select_own hold (by simp [Lookup.matches])
    exact ⟨_, _, rfl, hw₁, hf.1, hnick, hf.2.1.trans hmerge.symm, by simp [hf.2.1, hown, hoid]⟩

/-- `CreateUser` up to the store write, when the password hashed: refused for a taken email, then
a taken nickname, and otherwise the stamped user, by reads only. -/
theorem prepareUser_verdict (user : User) (id : UUID) (hash : String) :
    ∃ res w₁, (Service.prepareUser production user id (.ok hash)).run w = (res, w₁) ∧ ReadOnly w w₁ ∧
      match res with
      | .ok u => u.id = id ∧ u.email = user.email ∧ u.nickname = user.nickname ∧
          w.table.select (.email user.email) = none ∧ w.table.select (.nickname user.nickname) = none
      | .error e => (e = .emailTaken ∧ (w.table.select (.email user.email)).isSome) ∨
          (e = .nicknameTaken ∧ w.table.select (.email user.email) = none ∧
            (w.table.select (.nickname user.nickname)).isSome) := by
  let w₂ : World := { w with clock := w.clock + 1 + 1 }
  have h₂ : Holds w₂ := ⟨h.coherent, h.answering⟩
  have hemail : production.getByEmail user.email =
      CacheDecorator.getBy (Lookup.email user.email).key (UserRepository.getBy (.email user.email)) := rfl
  have hnick : production.getByNickname user.nickname = CacheDecorator.getBy
      (Lookup.nickname user.nickname).key (UserRepository.getBy (.nickname user.nickname)) := rfl
  simp only [Service.prepareUser, run_bind, run_wrapErr, run_done, run_send, Call.exec, run_attempt,
    hemail, hnick]
  rcases hse : w.table.select (.email user.email) with _ | re
  · have hm := read_missing h₂ (q := .email user.email) hse
    rcases hsn : w.table.select (.nickname user.nickname) with _ | rn
    · have hn := read_missing h₂ (q := .nickname user.nickname) hsn
      simp only [hm, hn, Except.toBool, Service.failIf, Bool.false_eq_true, if_false, run_pure]
      exact ⟨_, _, rfl, ⟨h₂, rfl, rfl⟩, by simp [hse, hsn]⟩
    · obtain ⟨u, w₃, hrun, -, hw₃⟩ := read_found h₂ (q := .nickname user.nickname) hsn
      simp only [hm, hrun, Except.toBool, Service.failIf, Bool.false_eq_true, if_false, if_true,
        run_pure, run_throw]
      exact ⟨_, _, rfl, ⟨hw₃.holds, hw₃.unchanged⟩, by simp [hse, hsn]⟩
  · obtain ⟨u, w₃, hrun, -, hw₃⟩ := read_found h₂ (q := .email user.email) hse
    simp only [hrun, Except.toBool, Service.failIf, if_true, run_throw]
    exact ⟨_, _, rfl, ⟨hw₃.holds, hw₃.unchanged⟩, by simp [hse]⟩

theorem createUser_verdict (user : User) (id : UUID) (hashed : Except Err String) :
    verdict ((Service.createUser production user id hashed).run w).1 =
      Directory.createVerdict w.table user id hashed := by
  rcases hashed with e | hash
  · simp [Service.createUser, Service.prepareUser, Directory.createVerdict, Err.cause]
  obtain ⟨res, w₁, hrun, hw₁, hres⟩ := prepareUser_verdict h user id hash
  rw [Service.createUser, run_bind, hrun]
  unfold Directory.createVerdict
  cases res with
  | error e =>
    rcases hres with ⟨rfl, hse⟩ | ⟨rfl, hse, hsn⟩
    · simp [hse, Err.cause]
    · simp [hse, hsn, Err.cause]
  | ok u =>
    obtain ⟨hid, he, hn, hse, hsn⟩ := hres
    dsimp only
    rw [verdict_commit, show production.create u = CacheDecorator.create newUserRepository u from rfl,
      run_create_of_nil hw₁.holds.answering, hw₁.unchanged.1]
    simp only [hse, hsn, Option.isSome_none, Bool.false_eq_true, if_false]
    rcases hsi : w.table.select (.id id) with _ | ri
    · have hfresh : ∀ r ∈ w.table.rows, r.id ≠ u.id ∧ r.email ≠ u.email ∧ r.nickname ≠ u.nickname :=
        fun r hr => by
          simpa [Lookup.matches, hid, he, hn] using And.intro (Table.select_eq_none.mp hsi r hr)
            (And.intro (Table.select_eq_none.mp hse r hr) (Table.select_eq_none.mp hsn r hr))
      obtain ⟨t, hins, -⟩ := Table.insert_of_fresh hfresh
      rw [hins]
      rfl
    · rw [Table.insert_of_taken_id (by rw [hid, hsi]; rfl)]
      simp [(violationErr_eq _).2.2, Err.cause]

theorem getForChange_missing {id : UUID} (hs : w.table.select (.id id) = none) (context : String) :
    (Service.getForChange production id context).run w = (.error .notFound, w) := by
  rw [Service.getForChange, run_tryCatch, show production.getByID id =
    CacheDecorator.getBy (Lookup.id id).key (UserRepository.getBy (.id id)) from rfl,
    read_missing h hs]
  rfl

theorem updateUser_verdict (id : UUID) (r : User) :
    verdict ((Service.updateUser production id r).run w).1 = Directory.updateVerdict w.table id r := by
  unfold Directory.updateVerdict
  rcases hs : w.table.select (.id id) with _ | old
  · simp only [Service.updateUser, Service.prepareUpdate, run_bind, getForChange_missing h hs]
    rfl
  obtain ⟨res, w₁, hrun, hw₁, hres⟩ := prepareUpdate_verdict h hs r
  rw [Service.updateUser, run_bind, hrun]
  cases res with
  | error e =>
    obtain ⟨rfl, he⟩ := hres
    simp [he, Err.cause]
  | ok m =>
    obtain ⟨hid, hnick, hemail, hfree⟩ := hres
    have hold : w₁.table.select (.id m.id) = some old := by rw [hw₁.unchanged.1, hid, hs]
    dsimp only
    rw [verdict_commit, decoratorUpdate_verdict hw₁.holds hold, hw₁.unchanged.1, hid, hfree, ← hnick,
      ← hemail, hfree]
    simp

theorem deleteUser_verdict (id : UUID) :
    verdict ((Service.deleteUser production id).run w).1 = Directory.findVerdict w.table id := by
  unfold Directory.findVerdict
  rcases hs : w.table.select (.id id) with _ | old
  · simp only [Service.deleteUser, run_bind, getForChange_missing h hs]
    rfl
  obtain ⟨hold, hid⟩ := Table.select_eq_some.mp hs
  obtain ⟨u₀, w₁, hrun, -, hw₁⟩ := read_found h hs
  have hget : (Service.getForChange production id "failed to get user for deletion").run w =
      (.ok u₀, w₁) := by
    rw [Service.getForChange, run_tryCatch, show production.getByID id =
      CacheDecorator.getBy (Lookup.id id).key (UserRepository.getBy (.id id)) from rfl, hrun]
  rw [Service.deleteUser, run_bind, hget]
  dsimp only
  rw [verdict_commit, show production.delete id = CacheDecorator.delete newUserRepository id from rfl,
    run_delete_of_nil hw₁.holds.answering, hw₁.unchanged.1, hs]
  simp [Table.delete_count_pos hold (by simpa [Lookup.matches] using hid)]

theorem getUser_verdict (id : UUID) :
    verdict ((Service.getUser production id).run w).1 = Directory.findVerdict w.table id := by
  have ha := (getUser_answers h id).1
  unfold Directory.findVerdict
  generalize ((Service.getUser production id).run w).1 = res at ha ⊢
  rcases res with e | u
  · obtain ⟨hnone, hcause⟩ := ha
    simp only [Table.profiles, Option.map_eq_none'] at hnone
    simp [hnone, hcause]
  · simp only [AnswersFrom, Table.profiles, Option.map_eq_some'] at ha
    obtain ⟨_, hsome, -⟩ := ha
    simp [hsome]

end Verdicts

end UsersService
