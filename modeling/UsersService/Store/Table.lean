import Mathlib.Data.List.Pairwise
import UsersService.User

/-! The `users` table of the migration and the SQL statements `UserRepository` sends to it,
each executed atomically. The table carries its primary key and its two UNIQUE columns as a
field, so no state of the store repeats an id, an email or a nickname; a statement that would
break one of them is refused with the violation Postgres reports. Column types (length limits,
`CHAR(2)` padding, timestamp precision) play no part: the table stores each value as given. -/

namespace UsersService

/-- Two rows the primary key and the UNIQUE columns allow side by side. -/
def Distinct (a b : User) : Prop := a.id ≠ b.id ∧ a.email ≠ b.email ∧ a.nickname ≠ b.nickname

theorem Distinct.symm {a b : User} (h : Distinct a b) : Distinct b a :=
  ⟨h.1.symm, h.2.1.symm, h.2.2.symm⟩

/-- The `users` table: its rows, no two of them sharing an id, an email or a nickname. -/
structure Table where
  rows : List User
  unique : rows.Pairwise Distinct

/-- A unique index an `INSERT` or `UPDATE` would violate. -/
inductive Violation where
  | pkey
  | nickname
  | email
  deriving DecidableEq

/-- The text of the error pgx returns for a violation. -/
def Violation.text : Violation → String
  | .pkey =>
    "ERROR: duplicate key value violates unique constraint \"users_pkey\" (SQLSTATE 23505)"
  | .nickname =>
    "ERROR: duplicate key value violates unique constraint \"users_nickname_key\" (SQLSTATE 23505)"
  | .email =>
    "ERROR: duplicate key value violates unique constraint \"users_email_key\" (SQLSTATE 23505)"

/-- The first index a row `u` would violate next to `rows`, in the order Postgres inserts index
entries: the primary key, then `nickname`, then `email` (the order of the migration). -/
def violation (rows : List User) (u : User) : Option Violation :=
  if rows.any (·.id == u.id) then some .pkey
  else if rows.any (·.nickname == u.nickname) then some .nickname
  else if rows.any (·.email == u.email) then some .email
  else none

theorem distinct_of_violation_eq_none {rows : List User} {u : User}
    (h : violation rows u = none) : ∀ r ∈ rows, Distinct u r := by
  intro r hr
  simp only [violation] at h
  split_ifs at h with h1 h2 h3
  simp only [List.any_eq_true, beq_iff_eq, not_exists, not_and] at h1 h2 h3
  exact ⟨fun e => h1 r hr e.symm, fun e => h3 r hr e.symm, fun e => h2 r hr e.symm⟩

/-- What `SELECT * FROM users WHERE <column> = $1` looks for. -/
inductive Lookup where
  | id (id : UUID)
  | email (email : String)
  | nickname (nickname : String)

/-- The `WHERE` condition of a lookup. -/
def Lookup.matches : Lookup → User → Bool
  | .id i, u => u.id == i
  | .email e, u => u.email == e
  | .nickname n, u => u.nickname == n

namespace Table

/-- `INSERT INTO users (...) VALUES ($1, ..., $9)`. -/
def insert (t : Table) (u : User) : Except Violation Table :=
  match h : violation t.rows u with
  | some v => .error v
  | none => .ok ⟨u :: t.rows, List.pairwise_cons.mpr ⟨distinct_of_violation_eq_none h, t.unique⟩⟩

/-- `SELECT * FROM users WHERE <column> = $1`, read with `GetContext`: the first matching row. -/
def select (t : Table) (q : Lookup) : Option User := t.rows.find? q.matches

/-- The row `UPDATE users SET first_name = .., ..., updated_at = $7 WHERE id = $8` leaves in
place of `old`: every column from `u` except `created_at`, which is kept, and `updated_at`. -/
def updatedRow (old u : User) (now : Nat) : User :=
  { u with createdAt := old.createdAt, updatedAt := now }

theorem pairwise_replace {rows : List User} (hu : rows.Pairwise Distinct) {i : UUID} {row : User}
    (hd : ∀ r ∈ rows, r.id ≠ i → Distinct row r) :
    (rows.map fun r => if r.id = i then row else r).Pairwise Distinct := by
  refine List.pairwise_map.mpr (hu.imp_of_mem fun {a b} ha hb hab => ?_)
  by_cases hai : a.id = i <;> by_cases hbi : b.id = i <;> simp only [hai, hbi, if_true, if_false]
  · exact absurd (hai.trans hbi.symm) hab.1
  · exact hd b hb hbi
  · exact (hd a ha hai).symm
  · exact hab

/-- `UPDATE users SET ... WHERE id = $8`, with the number of rows affected: none when no row
has the id, and a violation when the new nickname or email is another row's. -/
def update (t : Table) (u : User) (now : Nat) : Except Violation (Nat × Table) :=
  match t.select (.id u.id) with
  | none => .ok (0, t)
  | some old =>
    match h : violation (t.rows.filter (·.id != u.id)) (updatedRow old u now) with
    | some v => .error v
    | none => .ok (1, ⟨t.rows.map (fun r => if r.id = u.id then updatedRow old u now else r),
        pairwise_replace t.unique fun r hr hne =>
          distinct_of_violation_eq_none h r (List.mem_filter.mpr ⟨hr, by simpa using hne⟩)⟩)

/-- `DELETE FROM users WHERE id = $1`, with the number of rows affected. -/
def delete (t : Table) (i : UUID) : Nat × Table :=
  (t.rows.countP (·.id == i), ⟨t.rows.filter (·.id != i), t.unique.filter _⟩)

/-- No two stored rows share an id, an email or a nickname. -/
theorem eq_of_mem {t : Table} {r r' : User} (hr : r ∈ t.rows) (hr' : r' ∈ t.rows)
    (h : r.id = r'.id ∨ r.email = r'.email ∨ r.nickname = r'.nickname) : r = r' := by
  by_contra hne
  have hd := t.unique.forall (fun _ _ => Distinct.symm) hr hr' hne
  rcases h with h | h | h
  exacts [hd.1 h, hd.2.1 h, hd.2.2 h]

theorem eq_of_matches {t : Table} {q : Lookup} {r r' : User} (hr : r ∈ t.rows)
    (hr' : r' ∈ t.rows) (h : q.matches r) (h' : q.matches r') : r = r' := by
  apply eq_of_mem hr hr'
  cases q <;> simp only [Lookup.matches, beq_iff_eq] at h h' <;> simp [h, h']

/-- A lookup finds exactly the stored row that matches it. -/
theorem select_eq_some {t : Table} {q : Lookup} {r : User} :
    t.select q = some r ↔ r ∈ t.rows ∧ q.matches r := by
  constructor
  · intro h
    exact ⟨List.mem_of_find?_eq_some h, List.find?_some h⟩
  · rintro ⟨hr, hq⟩
    cases h : t.select q with
    | none => simp only [select, List.find?_eq_none] at h; exact absurd hq (h r hr)
    | some r' =>
      have := List.find?_some h
      rw [eq_of_matches (List.mem_of_find?_eq_some h) hr this hq]

theorem select_eq_none {t : Table} {q : Lookup} :
    t.select q = none ↔ ∀ r ∈ t.rows, q.matches r = false := by
  simp [select]

/-! ### What each statement does to the rows -/

variable {t t' : Table} {u : User} {now n : Nat}

theorem insert_eq_ok {t t' : Table} {u : User} (h : t.insert u = .ok t') : t'.rows = u :: t.rows := by
  unfold insert at h
  split at h <;> cases h
  rfl

theorem update_ok_zero (h : t.update u now = .ok (0, t')) : t' = t := by
  unfold update at h
  split at h
  · cases h; rfl
  · split at h <;> cases h

theorem update_ok_succ (h : t.update u now = .ok (n + 1, t')) :
    ∃ old, t.select (.id u.id) = some old ∧
      t'.rows = t.rows.map fun r => if r.id = u.id then updatedRow old u now else r := by
  unfold update at h
  split at h
  · cases h
  · rename_i old hold
    split at h <;> cases h
    exact ⟨old, hold, rfl⟩

/-- An update keeps every row with another id. -/
theorem mem_update (h : t.update u now = .ok (n, t')) {r : User} (hr : r ∈ t.rows)
    (hne : r.id ≠ u.id) : r ∈ t'.rows := by
  cases n with
  | zero => rwa [update_ok_zero h]
  | succ n =>
    obtain ⟨old, -, hrows⟩ := update_ok_succ h
    rw [hrows]
    exact List.mem_map.mpr ⟨r, hr, by simp [hne]⟩

/-- After an update the id finds the updated row. -/
theorem select_update (h : t.update u now = .ok (n + 1, t')) :
    ∃ old, t.select (.id u.id) = some old ∧ t'.select (.id u.id) = some (updatedRow old u now) := by
  obtain ⟨old, hold, hrows⟩ := update_ok_succ h
  refine ⟨old, hold, select_eq_some.mpr ⟨?_, by simp [Lookup.matches, updatedRow]⟩⟩
  have hmem := (select_eq_some.mp hold).1
  rw [hrows]
  exact List.mem_map.mpr ⟨old, hmem, by simp [show old.id = u.id by
    simpa [Lookup.matches] using (select_eq_some.mp hold).2]⟩

theorem mem_delete {i : UUID} {r : User} : r ∈ (t.delete i).2.rows ↔ r ∈ t.rows ∧ r.id ≠ i := by
  simp [delete]

theorem delete_count_pos {i : UUID} {r : User} (hr : r ∈ t.rows) (hi : r.id = i) :
    (t.delete i).1 ≠ 0 := by
  simp only [delete, ne_eq, List.countP_eq_zero, not_forall, beq_iff_eq]
  exact ⟨r, hr, by simp [hi]⟩

/-- A delete that affects no row leaves the table as it was. -/
theorem delete_count_zero {i : UUID} (h : (t.delete i).1 = 0) : (t.delete i).2 = t := by
  obtain ⟨rows, hu⟩ := t
  simp only [delete, List.countP_eq_zero, beq_iff_eq] at h ⊢
  congr 1
  exact List.filter_eq_self.mpr fun r hr => by simpa using h r hr

end Table

end UsersService
