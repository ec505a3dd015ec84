import Mathlib.Data.List.Infix
import Mathlib.Data.List.Sort
import Mathlib.Data.Nat.Digits
import Mathlib.Data.String.Basic
import Mathlib.Tactic.Ring
import UsersService.Store.Table

/-! The part of PostgreSQL the list queries reach. A text is split into tokens at its spaces; the
tokens are parsed as a `SELECT COUNT(*)` or a `SELECT *` over `users`, with conditions
`column ILIKE $n` joined by `AND`, an `ORDER BY` column and direction, and `LIMIT $n OFFSET $n`.
A statement and its arguments make a plan, which is run against the table. `ILIKE` is `LIKE` on
lower-cased text: `%` matches any run of characters, `_` any one character, and `\` makes the
next character literal. `ORDER BY` fixes the order of rows with different values only: rows with
equal values may come in any order, so a page is any answer that order allows. -/

namespace UsersService

/-! ### Tokens -/

/-- The tokens of two texts side by side: the last token of the first runs into the first
token of the second. -/
def glue {α : Type} [Append α] : List α → List α → List α
  | [], ys => ys
  | [x], [] => [x]
  | [x], y :: ys => (x ++ y) :: ys
  | x :: xs, ys => x :: glue xs ys

section Glue

variable {α : Type} [Append α]

@[simp] theorem glue_singleton_cons (x y : α) (ys : List α) : glue [x] (y :: ys) = (x ++ y) :: ys :=
  rfl

@[simp] theorem glue_cons_cons (x y : α) (xs ys : List α) :
    glue (x :: y :: xs) ys = x :: glue (y :: xs) ys := by
  cases ys <;> rfl

theorem glue_cons_of_ne_nil (x : α) {xs : List α} (h : xs ≠ []) (ys : List α) :
    glue (x :: xs) ys = x :: glue xs ys := by
  obtain ⟨y, xs, rfl⟩ := List.exists_cons_of_ne_nil h
  exact glue_cons_cons x y xs ys

end Glue

theorem splitOnP_go_append {α : Type} (p : α → Bool) (a b acc : List α) :
    List.splitOnP.go p (a ++ b) acc = glue (List.splitOnP.go p a acc) (b.splitOnP p) := by
  induction a generalizing acc with
  | nil =>
    obtain ⟨y, ys, h⟩ := List.exists_cons_of_ne_nil (List.splitOnP_ne_nil p b)
    rw [List.nil_append, List.splitOnP.go_acc, h]
    rfl
  | cons x a ih =>
    simp only [List.cons_append, List.splitOnP.go, List.append_eq]
    split
    · rw [ih, glue_cons_of_ne_nil _ (List.splitOnP.go_ne_nil _ _ _)]
    · exact ih _

theorem map_mk_glue (xs ys : List (List Char)) :
    (glue xs ys).map String.mk = glue (xs.map String.mk) (ys.map String.mk) := by
  induction xs with
  | nil => rfl
  | cons x xs ih =>
    cases xs with
    | nil => cases ys <;> rfl
    | cons y xs => simp only [glue_cons_cons, List.map_cons] at ih ⊢; rw [ih]

/-- The tokens of a text: the pieces between its spaces. -/
def tokens (text : String) : List String := (text.data.splitOn ' ').map String.mk

theorem tokens_append (a b : String) : tokens (a ++ b) = glue (tokens a) (tokens b) := by
  simp only [tokens, String.data_append, List.splitOn, List.splitOnP, splitOnP_go_append,
    map_mk_glue]

/-- A text without spaces is one token. -/
theorem tokens_of_no_space {s : String} (h : ∀ c ∈ s.data, c ≠ ' ') : tokens s = [s] := by
  rw [tokens, List.splitOn, List.splitOnP_eq_single _ _ (by simpa using h)]
  rfl

/-! ### Decimal numbers -/

/-- One more digit to the right of a number. -/
def decimalStep (n : Nat) (c : Char) : Nat := n * 10 + (c.toNat - '0'.toNat)

/-- The value of a string of decimal digits. -/
def decimalValue (ds : List Char) : Nat := ds.foldl decimalStep 0

theorem foldl_decimalStep (ds : List Char) (n : Nat) :
    ds.foldl decimalStep n = n * 10 ^ ds.length + ds.foldl decimalStep 0 := by
  induction ds generalizing n with
  | nil => simp
  | cons c ds ih =>
    simp only [List.foldl_cons, List.length_cons, Nat.pow_succ]
    rw [ih, ih (decimalStep 0 c)]
    simp only [decimalStep]
    ring

theorem decimalValue_cons (c : Char) (ds : List Char) :
    decimalValue (c :: ds) = (c.toNat - '0'.toNat) * 10 ^ ds.length + decimalValue ds := by
  simp only [decimalValue, List.foldl_cons]
  rw [foldl_decimalStep]
  simp [decimalStep]

theorem digitChar_value : ∀ d : Fin 10, (Nat.digitChar d).toNat - '0'.toNat = d := by decide

theorem digitChar_isDigit : ∀ d : Fin 10, (Nat.digitChar d).isDigit = true := by decide

theorem toDigitsCore_spec (fuel n : Nat) (ds : List Char) (hn : n < fuel) :
    decimalValue (Nat.toDigitsCore 10 fuel n ds) = n * 10 ^ ds.length + decimalValue ds ∧
      (∀ c ∈ Nat.toDigitsCore 10 fuel n ds, c.isDigit ∨ c ∈ ds) ∧
      Nat.toDigitsCore 10 fuel n ds ≠ [] := by
  induction fuel generalizing n ds with
  | zero => omega
  | succ fuel ih =>
    have hd := digitChar_value ⟨n % 10, Nat.mod_lt _ (by omega)⟩
    have hdigit := digitChar_isDigit ⟨n % 10, Nat.mod_lt _ (by omega)⟩
    simp only [Nat.toDigitsCore]
    split
    · rename_i h0
      refine ⟨?_, fun c hc => ?_, List.cons_ne_nil _ _⟩
      · rw [decimalValue_cons, hd]
        simp only
        rw [Nat.mod_eq_of_lt (by omega)]
      · rcases List.mem_cons.mp hc with rfl | hc
        exacts [.inl hdigit, .inr hc]
    · rename_i h0
      obtain ⟨hv, hc, hne⟩ := ih (n / 10) (Nat.digitChar (n % 10) :: ds) (by omega)
      refine ⟨?_, fun c hmem => ?_, hne⟩
      · rw [hv, decimalValue_cons, hd, List.length_cons, Nat.pow_succ]
        conv_rhs => rw [← Nat.div_add_mod n 10]
        ring
      · rcases hc c hmem with h | h
        · exact .inl h
        · rcases List.mem_cons.mp h with rfl | h
          exacts [.inl hdigit, .inr h]

/-- `%d` prints digits, at least one, whose value is the number. -/
theorem toString_decimal (n : Nat) :
    decimalValue (toString n).data = n ∧ (∀ c ∈ (toString n).data, c.isDigit) ∧
      (toString n).data ≠ [] := by
  obtain ⟨hv, hc, hne⟩ := toDigitsCore_spec (n + 1) n [] (by omega)
  exact ⟨by simpa [decimalValue] using hv, fun c h => by simpa using hc c h, hne⟩

/-! ### `LIKE` and `ILIKE` -/

/-- `s LIKE pattern`, over characters: `%` matches any run of characters, `_` any one, and `\`
makes the next character literal. A pattern ending in a lone `\` is an error in PostgreSQL and
matches nothing here; the patterns the code builds end in `%`. -/
def likeMatch : List Char → List Char → Bool
  | [], s => s.isEmpty
  | '%' :: p, s => s.tails.any (likeMatch p)
  | '_' :: p, s =>
    match s with
    | [] => false
    | _ :: s => likeMatch p s
  | '\\' :: c :: p, s =>
    match s with
    | [] => false
    | d :: s => c == d && likeMatch p s
  | ['\\'], _ => false
  | c :: p, s =>
    match s with
    | [] => false
    | d :: s => c == d && likeMatch p s

/-- `s ILIKE pattern`: `LIKE` with both sides lower-cased. -/
def ilike (s pattern : String) : Bool :=
  likeMatch (pattern.data.map Char.toLower) (s.data.map Char.toLower)

/-- The characters `LIKE` gives a meaning to. -/
def likeMeta (c : Char) : Bool := c == '%' || c == '_' || c == '\\'

/-- A pattern of ordinary characters matches exactly the texts it starts. -/
theorem likeMatch_literal {v : List Char} (hv : ∀ c ∈ v, likeMeta c = false) (p s : List Char) :
    likeMatch (v ++ p) s = (v.isPrefixOf s && likeMatch p (s.drop v.length)) := by
  induction v generalizing s with
  | nil => simp
  | cons c v ih =>
    have hc := hv c (List.mem_cons_self c v)
    simp only [likeMeta, Bool.or_eq_false_iff, beq_eq_false_iff_ne, ne_eq] at hc
    obtain ⟨⟨h1, h2⟩, h3⟩ := hc
    rw [List.cons_append]
    cases s with
    | nil => unfold likeMatch; simp_all
    | cons d s =>
      have hstep : likeMatch (c :: (v ++ p)) (d :: s) = (c == d && likeMatch (v ++ p) s) := by
        conv_lhs => unfold likeMatch
        split <;> simp_all
      rw [hstep, ih (fun x hx => hv x (List.mem_cons_of_mem c hx))]
      simp [List.isPrefixOf, Bool.and_assoc]

theorem likeMatch_percent_cons (p s : List Char) :
    likeMatch ('%' :: p) s = s.tails.any (likeMatch p) := by
  simp [likeMatch]

theorem likeMatch_percent (s : List Char) : likeMatch ['%'] s = true := by
  rw [likeMatch_percent_cons, List.any_eq_true]
  exact ⟨[], (List.mem_tails _ _).mpr List.nil_suffix, rfl⟩

/-- `'%' + v + '%'` for a `v` of ordinary characters matches exactly the texts `v` occurs in. -/
theorem likeMatch_contains {v : List Char} (hv : ∀ c ∈ v, likeMeta c = false) (s : List Char) :
    likeMatch ('%' :: (v ++ ['%'])) s = true ↔ v <:+: s := by
  rw [likeMatch_percent_cons]
  simp only [List.any_eq_true, likeMatch_literal hv, likeMatch_percent, Bool.and_true,
    List.isPrefixOf_iff_prefix, List.mem_tails, List.infix_iff_prefix_suffix]
  exact ⟨fun ⟨t, hs, hp⟩ => ⟨t, hp, hs⟩, fun ⟨t, hp, hs⟩ => ⟨t, hs, hp⟩⟩

theorem toNat_ofNat_of_lt {n : Nat} (h : n < 0xd800) : (Char.ofNat n).toNat = n := by
  rw [Char.ofNat, dif_pos (Or.inl h)]
  rfl

/-- Lower-casing makes no `LIKE` character out of an ordinary one. -/
theorem likeMeta_toLower (c : Char) : likeMeta c.toLower = likeMeta c := by
  unfold Char.toLower
  dsimp only
  split
  · have h := toNat_ofNat_of_lt (n := c.toNat + 32) (by omega)
    have hc : likeMeta c = false := by
      simp only [likeMeta, Bool.or_eq_false_iff, beq_eq_false_iff_ne, ne_eq]
      refine ⟨⟨?_, ?_⟩, ?_⟩ <;> rintro rfl <;> simp_all
    rw [hc]
    simp only [likeMeta, Bool.or_eq_false_iff, beq_eq_false_iff_ne, ne_eq]
    refine ⟨⟨?_, ?_⟩, ?_⟩ <;> intro heq <;> rw [heq] at h <;> simp_all
  · rfl

/-- `s ILIKE '%' + v + '%'`, for a `v` without `%`, `_` and `\`, holds exactly when `v` occurs in
`s` up to case. -/
theorem ilike_contains {v : String} (hv : ∀ c ∈ v.data, likeMeta c = false) (s : String) :
    ilike s ("%" ++ v ++ "%") = true ↔ v.data.map Char.toLower <:+: s.data.map Char.toLower := by
  have hlow : ∀ c ∈ v.data.map Char.toLower, likeMeta c = false := by
    simpa [likeMeta_toLower] using hv
  simpa [ilike] using likeMatch_contains hlow (s.data.map Char.toLower)

/-! ### Columns and their values -/

/-- A column of `users`. -/
inductive Column where
  | firstName
  | lastName
  | nickname
  | email
  | country
  | createdAt
  | updatedAt
  deriving DecidableEq, Repr

/-- The column's name in SQL. -/
def Column.name : Column → String
  | .firstName => "first_name"
  | .lastName => "last_name"
  | .nickname => "nickname"
  | .email => "email"
  | .country => "country"
  | .createdAt => "created_at"
  | .updatedAt => "updated_at"

def Column.all : List Column :=
  [.firstName, .lastName, .nickname, .email, .country, .createdAt, .updatedAt]

/-- The column a name names. -/
def Column.ofName (name : String) : Option Column := Column.all.find? (·.name == name)

theorem Column.ofName_name (c : Column) : Column.ofName c.name = some c := by
  cases c <;> rfl

theorem Column.name_of_ofName {name : String} {c : Column} (h : Column.ofName name = some c) :
    c.name = name := by
  simpa using (List.find?_some h)

/-- A value of a column: text, or a timestamp. -/
inductive Cell where
  | text (s : String)
  | time (t : Nat)
  deriving DecidableEq

/-- The order `ORDER BY` sorts a column's values in. -/
def Cell.le : Cell → Cell → Prop
  | .text a, .text b => a ≤ b
  | .time a, .time b => a ≤ b
  | .text _, .time _ => True
  | .time _, .text _ => False

instance : DecidableRel Cell.le
  | .text a, .text b => inferInstanceAs (Decidable (a ≤ b))
  | .time a, .time b => inferInstanceAs (Decidable (a ≤ b))
  | .text _, .time _ => inferInstanceAs (Decidable True)
  | .time _, .text _ => inferInstanceAs (Decidable False)

/-- Two values each before the other are the same value. -/
theorem Cell.eq_of_le_of_le : ∀ {a b : Cell}, a.le b → b.le a → a = b
  | .text _, .text _, h, h' => congrArg Cell.text (le_antisymm h h')
  | .time _, .time _, h, h' => congrArg Cell.time (Nat.le_antisymm h h')
  | .text _, .time _, _, h' => h'.elim
  | .time _, .text _, h, _ => h.elim

/-- The value of a column in a row. -/
def Column.cell : Column → User → Cell
  | .firstName, u => .text u.firstName
  | .lastName, u => .text u.lastName
  | .nickname, u => .text u.nickname
  | .email, u => .text u.email
  | .country, u => .text u.country
  | .createdAt, u => .time u.createdAt
  | .updatedAt, u => .time u.updatedAt

/-- The text columns, and their values. -/
def Column.text? : Column → Option (User → String)
  | .firstName => some (·.firstName)
  | .lastName => some (·.lastName)
  | .nickname => some (·.nickname)
  | .email => some (·.email)
  | .country => some (·.country)
  | .createdAt | .updatedAt => none

/-- `a` may come before `b` under `ORDER BY column`, ascending or descending. -/
def Column.before (c : Column) (desc : Bool) (a b : User) : Prop :=
  if desc then (c.cell b).le (c.cell a) else (c.cell a).le (c.cell b)

instance (c : Column) (desc : Bool) : DecidableRel (c.before desc) := fun a b => by
  unfold Column.before
  exact inferInstance

theorem Column.cell_eq_of_before {c : Column} {desc : Bool} {a b : User} (h : c.before desc a b)
    (h' : c.before desc b a) : c.cell a = c.cell b := by
  unfold Column.before at h h'
  split at h <;> simp only [*, if_true, if_false] at h' <;>
    first | exact (Cell.eq_of_le_of_le h h').symm | exact Cell.eq_of_le_of_le h h'

/-- Any two values come in some order. -/
theorem Cell.le_or_le : ∀ a b : Cell, a.le b ∨ b.le a
  | .text a, .text b => le_total a b
  | .time a, .time b => Nat.le_total a b
  | .text _, .time _ => .inl trivial
  | .time _, .text _ => .inr trivial

theorem Cell.le_of_le_of_le : ∀ {a b c : Cell}, a.le b → b.le c → a.le c
  | .text _, .text _, .text _, h, h' => le_trans h h'
  | .time _, .time _, .time _, h, h' => Nat.le_trans h h'
  | .text _, _, .time _, _, _ => trivial
  | .time _, .text _, _, h, _ => h.elim
  | _, .time _, .text _, _, h' => h'.elim

instance (c : Column) (desc : Bool) : IsTotal User (c.before desc) where
  total a b := by cases desc <;> exact Cell.le_or_le _ _ |>.symm

instance (c : Column) (desc : Bool) : IsTrans User (c.before desc) where
  trans a b d := by
    cases desc
    · exact Cell.le_of_le_of_le
    · exact fun h h' => Cell.le_of_le_of_le h' h

/-! ### Statements -/

/-- `column ILIKE param`, `param` a `$n` token. -/
structure Condition where
  column : Column
  param : String
  deriving DecidableEq

/-- `SELECT COUNT(*) FROM users WHERE ...`. -/
structure CountStmt where
  conditions : List Condition

/-- `SELECT * FROM users WHERE ... ORDER BY column direction LIMIT $n OFFSET $m`. -/
structure SelectStmt where
  conditions : List Condition
  orderBy : Column
  desc : Bool
  limit : String
  offset : String

/-- A `$n` token: `$` and at least one digit. -/
def isPlaceholder (tok : String) : Bool :=
  match tok.data with
  | '$' :: ds => !ds.isEmpty && ds.all Char.isDigit
  | _ => false

def parseCondition (column op param : String) : Option Condition :=
  match Column.ofName column with
  | some c => if op = "ILIKE" ∧ isPlaceholder param then some ⟨c, param⟩ else none
  | none => none

/-- Conditions joined by `AND`, and the tokens after them. -/
def parseConditions : List String → Option (List Condition × List String)
  | column :: op :: param :: rest =>
    match parseCondition column op param with
    | none => none
    | some c =>
      match rest with
      | "AND" :: rest => (parseConditions rest).map fun (cs, rest) => (c :: cs, rest)
      | rest => some ([c], rest)
  | _ => none

/-- An optional `WHERE` clause, and the tokens after it. -/
def parseWhere : List String → Option (List Condition × List String)
  | "WHERE" :: rest => parseConditions rest
  | rest => some ([], rest)

def parseDirection : String → Option Bool
  | "ASC" => some false
  | "DESC" => some true
  | _ => none

def parseCount : List String → Option CountStmt
  | "SELECT" :: "COUNT(*)" :: "FROM" :: "users" :: rest =>
    match parseWhere rest with
    | some (cs, []) => some ⟨cs⟩
    | _ => none
  | _ => none

def parseSelect : List String → Option SelectStmt
  | "SELECT" :: "*" :: "FROM" :: "users" :: rest =>
    match parseWhere rest with
    | some (cs, ["ORDER", "BY", column, direction, "LIMIT", limit, "OFFSET", offset]) =>
      match Column.ofName column, parseDirection direction with
      | some c, some desc =>
        if isPlaceholder limit ∧ isPlaceholder offset then some ⟨cs, c, desc, limit, offset⟩
        else none
      | _, _ => none
    | _ => none
  | _ => none

/-! ### Plans and answers -/

/-- An argument bound to a placeholder. -/
inductive SqlArg where
  | text (s : String)
  | int (v : BitVec 64)

/-- The argument `$n` stands for: the `n`-th, from 1. -/
def bindParam (args : List SqlArg) (param : String) : Option SqlArg :=
  match param.data with
  | '$' :: ds =>
    match decimalValue ds with
    | 0 => none
    | n + 1 => args[n]?
  | _ => none

/-- A condition with its argument bound: a test of rows, when the column is text and the
argument a text pattern. -/
def Condition.compile (args : List SqlArg) (c : Condition) : Option (User → Bool) :=
  match bindParam args c.param, c.column.text? with
  | some (.text pattern), some field => some fun u => ilike (field u) pattern
  | _, _ => none

/-- The conditions of a `WHERE` clause, all of them. -/
def compileWhere (args : List SqlArg) : List Condition → Option (User → Bool)
  | [] => some fun _ => true
  | c :: cs =>
    match c.compile args, compileWhere args cs with
    | some p, some q => some fun u => p u && q u
    | _, _ => none

/-- What a `SELECT *` asks for once its arguments are bound. -/
structure Plan where
  keep : User → Bool
  orderBy : Column
  desc : Bool
  limit : Nat
  offset : Nat

/-- The plan of a `SELECT *` text with its arguments; a text that does not parse, an argument of
the wrong type, and a negative `LIMIT` or `OFFSET` are errors. -/
def selectPlan (text : String) (args : List SqlArg) : Option Plan := do
  let s ← parseSelect (tokens text)
  let keep ← compileWhere args s.conditions
  match bindParam args s.limit, bindParam args s.offset with
  | some (.int limit), some (.int offset) =>
    if 0 ≤ limit.toInt ∧ 0 ≤ offset.toInt then
      some ⟨keep, s.orderBy, s.desc, limit.toNat, offset.toNat⟩
    else none
  | _, _ => none

/-- The answer to a `SELECT COUNT(*)` text with its arguments. -/
def countAnswer (t : Table) (text : String) (args : List SqlArg) : Option Nat := do
  let s ← parseCount (tokens text)
  let keep ← compileWhere args s.conditions
  pure (t.rows.countP keep)

/-- A page the database may answer for a plan: the kept rows in an order `ORDER BY` allows,
past `OFFSET`, cut at `LIMIT`. -/
def Plan.Answer (plan : Plan) (rows page : List User) : Prop :=
  ∃ out : List User, out.Perm (rows.filter plan.keep) ∧ out.Sorted (plan.orderBy.before plan.desc) ∧
    page = (out.drop plan.offset).take plan.limit

/-- The database can always answer a plan. -/
theorem Plan.exists_answer (plan : Plan) (rows : List User) : ∃ page, plan.Answer rows page :=
  ⟨_, _, List.perm_insertionSort _ _, List.sorted_insertionSort _ _, rfl⟩

/-- Two sorted orders of the same rows are the same order when no two of the rows can come in
either order. -/
theorem eq_of_perm_of_sorted {α : Type} {r : α → α → Prop} {l₁ l₂ : List α} (hp : l₁.Perm l₂)
    (h₁ : l₁.Sorted r) (h₂ : l₂.Sorted r) (hanti : ∀ a ∈ l₁, ∀ b ∈ l₁, r a b → r b a → a = b) :
    l₁ = l₂ := by
  induction l₁ generalizing l₂ with
  | nil => exact hp.symm.eq_nil.symm
  | cons a t ih =>
    cases l₂ with
    | nil => exact absurd hp.eq_nil (List.cons_ne_nil _ _)
    | cons b u =>
      have hab : a = b := by
        by_contra hne
        have ha : a ∈ u := (List.mem_cons.mp (hp.subset (List.mem_cons_self a t))).resolve_left hne
        have hb : b ∈ t :=
          (List.mem_cons.mp (hp.symm.subset (List.mem_cons_self b u))).resolve_left (Ne.symm hne)
        exact hne (hanti a (List.mem_cons_self a t) b (List.mem_cons_of_mem a hb)
          (List.rel_of_sorted_cons h₁ b hb) (List.rel_of_sorted_cons h₂ a ha))
      subst hab
      rw [ih hp.cons_inv h₁.of_cons h₂.of_cons fun x hx y hy =>
        hanti x (List.mem_cons_of_mem a hx) y (List.mem_cons_of_mem a hy)]

end UsersService
