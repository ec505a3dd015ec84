import UsersService.List.Sql

/-! `UserRepository.List`: the two texts it sends and their arguments. Each filter becomes a
condition `field ILIKE $n` with the argument `%value%`; the conditions, joined by `AND`, make the
`WHERE` clause of a `SELECT COUNT(*)` and of a `SELECT *`, which also gets
`ORDER BY <OrderBy> ASC|DESC LIMIT $k+1 OFFSET $k+2`. Field names and `OrderBy` are spliced into
the text; values, the limit and the offset are arguments. When every field and `OrderBy` name a
column, the texts parse back as the statements meant, with placeholders `$1 .. $k+2` in order, and
the database keeps exactly the rows every filter's pattern matches. -/

namespace UsersService

namespace UserRepository

/-- The loop over the filters: each filter's condition and argument, `$n` counting from
`argCount`, and `argCount` after the loop. -/
def filterClauses : List Filter → Nat → List String × List String × Nat
  | [], argCount => ([], [], argCount)
  | filter :: filters, argCount =>
    let (conditions, filterArgs, next) := filterClauses filters (argCount + 1)
    ((filter.field ++ " ILIKE $" ++ toString argCount) :: conditions,
      ("%" ++ filter.value ++ "%") :: filterArgs, next)

/-- `" WHERE " + strings.Join(conditions, " AND ")`, or nothing without conditions. -/
def whereClause (conditions : List String) : String :=
  if conditions.isEmpty then "" else " WHERE " ++ " AND ".intercalate conditions

def countQuery (params : ListParams) : String :=
  "SELECT COUNT(*) FROM users" ++ whereClause (filterClauses params.filters 1).1

def selectQuery (params : ListParams) : String :=
  let (conditions, _, argCount) := filterClauses params.filters 1
  "SELECT * FROM users" ++ whereClause conditions ++ " ORDER BY " ++ params.orderBy ++
    (if params.orderDesc then " DESC" else " ASC") ++
    " LIMIT $" ++ toString argCount ++ " OFFSET $" ++ toString (argCount + 1)

/-- The arguments of the count. -/
def filterArgs (params : ListParams) : List SqlArg := (filterClauses params.filters 1).2.1.map .text

/-- The arguments of the select: the filters', then `Limit` and `Offset`. -/
def selectArgs (params : ListParams) : List SqlArg :=
  filterArgs params ++ [.int params.limit, .int params.offset]

/-- What `List` may return on a table: the page and the count, or the error of the statement
the database refused. -/
def ListAnswer (t : Table) (params : ListParams) : Except Err (List User × BitVec 64) → Prop
  | .ok (users, totalCount) =>
    ∃ n, countAnswer t (countQuery params) (filterArgs params) = some n ∧
      totalCount = BitVec.ofNat 64 n ∧
      ∃ plan, selectPlan (selectQuery params) (selectArgs params) = some plan ∧
        plan.Answer t.rows users
  | .error e =>
    (countAnswer t (countQuery params) (filterArgs params) = none ∧
      ∃ text, e = .wrap "error counting users" (.sql text)) ∨
    ((countAnswer t (countQuery params) (filterArgs params)).isSome ∧
      selectPlan (selectQuery params) (selectArgs params) = none ∧
      ∃ text, e = .wrap "error listing users" (.sql text))

end UserRepository

/-! ### The texts as tokens -/

theorem intercalate_go_append (x y s : String) (l : List String) :
    String.intercalate.go (x ++ y) s l = x ++ String.intercalate.go y s l := by
  induction l generalizing y with
  | nil => rfl
  | cons c l ih =>
    simp only [String.intercalate.go, String.append_assoc] at ih ⊢
    exact ih _

theorem intercalate_cons_cons (s a b : String) (l : List String) :
    s.intercalate (a :: b :: l) = a ++ s ++ s.intercalate (b :: l) := by
  simp only [String.intercalate, String.intercalate.go]
  exact intercalate_go_append (a ++ s) b s l

/-- Tokens that begin with an empty one run into any tokens before them. -/
theorem glue_empty_head {xs : List String} (h : xs ≠ []) (ys : List String) :
    glue xs ("" :: ys) = xs ++ ys := by
  induction xs with
  | nil => exact absurd rfl h
  | cons x xs ih =>
    cases xs with
    | nil => simp
    | cons y xs => rw [glue_cons_cons, ih (List.cons_ne_nil _ _)]; rfl

/-! The literal pieces of the texts, as tokens. -/

@[simp] theorem tokens_select_count :
    tokens "SELECT COUNT(*) FROM users" = ["SELECT", "COUNT(*)", "FROM", "users"] := by decide

@[simp] theorem tokens_select_all : tokens "SELECT * FROM users" = ["SELECT", "*", "FROM", "users"] := by
  decide

@[simp] theorem tokens_where : tokens " WHERE " = ["", "WHERE", ""] := by decide

@[simp] theorem tokens_and : tokens " AND " = ["", "AND", ""] := by decide

@[simp] theorem tokens_ilike : tokens " ILIKE $" = ["", "ILIKE", "$"] := by decide

@[simp] theorem tokens_order_by : tokens " ORDER BY " = ["", "ORDER", "BY", ""] := by decide

@[simp] theorem tokens_asc : tokens " ASC" = ["", "ASC"] := by decide

@[simp] theorem tokens_desc : tokens " DESC" = ["", "DESC"] := by decide

@[simp] theorem tokens_limit : tokens " LIMIT $" = ["", "LIMIT", "$"] := by decide

@[simp] theorem tokens_offset : tokens " OFFSET $" = ["", "OFFSET", "$"] := by decide

@[simp] theorem tokens_empty : tokens "" = [""] := by decide

theorem name_no_space (c : Column) : ∀ ch ∈ c.name.data, ch ≠ ' ' := by
  cases c <;> decide

theorem toString_no_space (n : Nat) : ∀ ch ∈ (toString n).data, ch ≠ ' ' := fun ch h hsp =>
  absurd ((toString_decimal n).2.1 ch h) (by rw [hsp]; decide)

/-- The tokens of the conditions of `filters`, `$n` counting from `n`. -/
def condTokens : List Filter → Nat → List String
  | [], _ => []
  | f :: fs, n =>
    f.field :: "ILIKE" :: ("$" ++ toString n) :: (if fs.isEmpty then [] else "AND" :: condTokens fs (n + 1))

section Tokens

variable {filters : List Filter}

theorem tokens_conditions (hsp : ∀ f ∈ filters, ∀ ch ∈ f.field.data, ch ≠ ' ') (hne : filters ≠ [])
    (n : Nat) :
    tokens (" AND ".intercalate (UserRepository.filterClauses filters n).1) = condTokens filters n := by
  induction filters generalizing n with
  | nil => exact absurd rfl hne
  | cons f fs ih =>
    have hf := tokens_of_no_space (hsp f (List.mem_cons_self f fs))
    cases fs with
    | nil =>
      simp [UserRepository.filterClauses, String.intercalate, String.intercalate.go,
        tokens_append, hf, tokens_of_no_space (toString_no_space n), condTokens]
    | cons g gs =>
      have hrest := ih (fun x hx => hsp x (List.mem_cons_of_mem f hx)) (List.cons_ne_nil g gs) (n + 1)
      obtain ⟨c, cs, hcs⟩ : ∃ c cs, (UserRepository.filterClauses (g :: gs) (n + 1)).1 = c :: cs :=
        ⟨_, _, rfl⟩
      have hfc : (UserRepository.filterClauses (f :: g :: gs) n).1 =
          (f.field ++ " ILIKE $" ++ toString n) :: (UserRepository.filterClauses (g :: gs) (n + 1)).1 :=
        rfl
      rw [hfc, hcs, intercalate_cons_cons, ← hcs, tokens_append, tokens_append, hrest]
      simp [tokens_append, hf, tokens_of_no_space (toString_no_space n), condTokens]

/-- The loop leaves `argCount` past one number per filter. -/
theorem filterClauses_argCount (n : Nat) :
    (UserRepository.filterClauses filters n).2.2 = n + filters.length := by
  induction filters generalizing n with
  | nil => rfl
  | cons f fs ih => simp only [UserRepository.filterClauses, ih, List.length_cons]; omega

theorem filterClauses_args (n : Nat) :
    (UserRepository.filterClauses filters n).2.1 = filters.map fun f => "%" ++ f.value ++ "%" := by
  induction filters generalizing n with
  | nil => rfl
  | cons f fs ih => simp only [UserRepository.filterClauses, ih, List.map_cons]

/-- The tokens of the `WHERE` clause, after an empty one: none without filters. -/
theorem tokens_whereClause (hsp : ∀ f ∈ filters, ∀ ch ∈ f.field.data, ch ≠ ' ') (n : Nat) :
    tokens (UserRepository.whereClause (UserRepository.filterClauses filters n).1) =
      "" :: (if filters.isEmpty then [] else "WHERE" :: condTokens filters n) := by
  cases filters with
  | nil => rfl
  | cons f fs =>
    have hc := tokens_conditions hsp (List.cons_ne_nil f fs) n
    simp only [UserRepository.whereClause, UserRepository.filterClauses, List.isEmpty_cons,
      Bool.false_eq_true, if_false] at hc ⊢
    rw [tokens_append, hc]
    simp [condTokens]

end Tokens

/-! ### The texts parse as the statements meant -/

/-- The conditions `column ILIKE $n` on `columns`, `$n` counting from `n`. -/
def numberedConditions : List Column → Nat → List Condition
  | [], _ => []
  | c :: cs, n => ⟨c, "$" ++ toString n⟩ :: numberedConditions cs (n + 1)

theorem placeholder_data (n : Nat) : ("$" ++ toString n).data = '$' :: (toString n).data := rfl

theorem isPlaceholder_numbered (n : Nat) : isPlaceholder ("$" ++ toString n) = true := by
  obtain ⟨-, hd, hne⟩ := toString_decimal n
  simpa [isPlaceholder, placeholder_data, List.all_eq_true, List.isEmpty_iff, hne] using hd

theorem no_space_of_names {filters : List Filter} {cols : List Column}
    (hcols : filters.map (·.field) = cols.map Column.name) :
    ∀ f ∈ filters, ∀ ch ∈ f.field.data, ch ≠ ' ' := fun f hf => by
  obtain ⟨c, -, hc⟩ := List.mem_map.mp (hcols ▸ List.mem_map_of_mem (fun x : Filter => x.field) hf)
  exact hc ▸ name_no_space c

theorem parseConditions_condTokens {filters : List Filter} {cols : List Column}
    (hcols : filters.map (·.field) = cols.map Column.name) (hne : filters ≠ []) (n : Nat)
    (rest : List String) (hrest : rest.head? ≠ some "AND") :
    parseConditions (condTokens filters n ++ rest) = some (numberedConditions cols n, rest) := by
  induction filters generalizing cols n with
  | nil => exact absurd rfl hne
  | cons f fs ih =>
    cases cols with
    | nil => simp at hcols
    | cons c cs =>
      simp only [List.map_cons, List.cons.injEq] at hcols
      obtain ⟨hf, hfs⟩ := hcols
      have hcond : parseCondition f.field "ILIKE" ("$" ++ toString n) = some ⟨c, "$" ++ toString n⟩ := by
        simp [parseCondition, hf, Column.ofName_name, isPlaceholder_numbered]
      cases fs with
      | nil =>
        obtain rfl : cs = [] := List.map_eq_nil_iff.mp hfs.symm
        simp only [condTokens, List.isEmpty_nil, if_true, List.cons_append, List.nil_append,
          parseConditions, hcond]
        split
        · simp at hrest
        · rfl
      | cons g gs =>
        rw [condTokens.eq_2]
        simp only [List.isEmpty_cons, Bool.false_eq_true, if_false, List.cons_append, parseConditions,
          hcond, ih hfs (List.cons_ne_nil _ _) (n + 1)]
        rfl

namespace UserRepository

variable {params : ListParams}

theorem tokens_countQuery (hsp : ∀ f ∈ params.filters, ∀ ch ∈ f.field.data, ch ≠ ' ') :
    tokens (countQuery params) = ["SELECT", "COUNT(*)", "FROM", "users"] ++
      (if params.filters.isEmpty then [] else "WHERE" :: condTokens params.filters 1) := by
  rw [countQuery, tokens_append, tokens_whereClause hsp, tokens_select_count,
    glue_empty_head (List.cons_ne_nil _ _)]

theorem tokens_selectQuery (hsp : ∀ f ∈ params.filters, ∀ ch ∈ f.field.data, ch ≠ ' ')
    (horder : ∀ ch ∈ params.orderBy.data, ch ≠ ' ') :
    tokens (selectQuery params) = ["SELECT", "*", "FROM", "users"] ++
      (if params.filters.isEmpty then [] else "WHERE" :: condTokens params.filters 1) ++
      ["ORDER", "BY", params.orderBy, if params.orderDesc then "DESC" else "ASC",
        "LIMIT", "$" ++ toString (params.filters.length + 1),
        "OFFSET", "$" ++ toString (params.filters.length + 2)] := by
  have hwhere := tokens_whereClause hsp 1
  have hcount : (filterClauses params.filters 1).2.2 = 1 + params.filters.length :=
    filterClauses_argCount 1
  rcases hfc : filterClauses params.filters 1 with ⟨conditions, filterArgs, argCount⟩
  rw [hfc] at hwhere hcount
  obtain rfl : argCount = params.filters.length + 1 := by simpa [Nat.add_comm] using hcount
  simp only [selectQuery, hfc, String.append_assoc, tokens_append, hwhere, tokens_select_all,
    tokens_order_by, tokens_of_no_space horder, tokens_limit, tokens_offset,
    tokens_of_no_space (toString_no_space _)]
  cases params.orderDesc <;> simp [glue_empty_head]

variable {cols : List Column}

theorem parseCount_countQuery (hcols : params.filters.map (·.field) = cols.map Column.name) :
    parseCount (tokens (countQuery params)) = some ⟨numberedConditions cols 1⟩ := by
  rw [tokens_countQuery (no_space_of_names hcols)]
  cases hf : params.filters with
  | nil =>
    obtain rfl : cols = [] := List.map_eq_nil_iff.mp (by rw [← hcols, hf]; rfl)
    rfl
  | cons f fs =>
    have h := parseConditions_condTokens (hf ▸ hcols) (List.cons_ne_nil f fs) 1 []
      (by simp)
    rw [List.append_nil] at h
    simp [parseCount, parseWhere, h]

theorem parseSelect_selectQuery (hcols : params.filters.map (·.field) = cols.map Column.name)
    (c : Column) (hc : params.orderBy = c.name) :
    parseSelect (tokens (selectQuery params)) = some ⟨numberedConditions cols 1, c, params.orderDesc,
      "$" ++ toString (cols.length + 1), "$" ++ toString (cols.length + 2)⟩ := by
  have hlen : params.filters.length = cols.length := by
    simpa using congrArg List.length hcols
  rw [tokens_selectQuery (no_space_of_names hcols) (hc ▸ name_no_space c), hlen, hc]
  have hdir : parseDirection (if params.orderDesc then "DESC" else "ASC") = some params.orderDesc := by
    cases params.orderDesc <;> rfl
  cases hf : params.filters with
  | nil =>
    obtain rfl : cols = [] := List.map_eq_nil_iff.mp (by rw [← hcols, hf]; rfl)
    simp [parseSelect, parseWhere, Column.ofName_name, hdir, isPlaceholder_numbered,
      numberedConditions]
  | cons f fs =>
    have h := parseConditions_condTokens (hf ▸ hcols) (List.cons_ne_nil f fs) 1
      ["ORDER", "BY", c.name, if params.orderDesc then "DESC" else "ASC", "LIMIT",
        "$" ++ toString (cols.length + 1), "OFFSET", "$" ++ toString (cols.length + 2)] (by simp)
    simp [parseSelect, parseWhere, h, Column.ofName_name, hdir, isPlaceholder_numbered]

/-- A `SELECT *` whose `ORDER BY` names no column does not parse. -/
theorem parseSelect_selectQuery_eq_none (hcols : params.filters.map (·.field) = cols.map Column.name)
    (horder : ∀ ch ∈ params.orderBy.data, ch ≠ ' ') (hname : Column.ofName params.orderBy = none) :
    parseSelect (tokens (selectQuery params)) = none := by
  have hlen : params.filters.length = cols.length := by
    simpa using congrArg List.length hcols
  rw [tokens_selectQuery (no_space_of_names hcols) horder, hlen]
  cases hf : params.filters with
  | nil => simp [parseSelect, parseWhere, hname]
  | cons f fs =>
    have h := parseConditions_condTokens (hf ▸ hcols) (List.cons_ne_nil f fs) 1
      ["ORDER", "BY", params.orderBy, if params.orderDesc then "DESC" else "ASC", "LIMIT",
        "$" ++ toString (cols.length + 1), "OFFSET", "$" ++ toString (cols.length + 2)] (by simp)
    simp [parseSelect, parseWhere, h, hname]

end UserRepository

/-! ### What the database does with the texts -/

theorem bindParam_numbered (args : List SqlArg) (i : Nat) :
    bindParam args ("$" ++ toString (i + 1)) = args[i]? := by
  simp only [bindParam, placeholder_data, (toString_decimal (i + 1)).1]

/-- The condition `List` builds for a filter, on a row: the filter's column `ILIKE` the
argument `'%' + value + '%'`. -/
def Filter.holds (f : Filter) (u : User) : Bool :=
  match (Column.ofName f.field).bind Column.text? with
  | some field => ilike (field u) ("%" ++ f.value ++ "%")
  | none => false

theorem compileWhere_numbered {filters : List Filter} {cols : List Column}
    (hcols : filters.map (·.field) = cols.map Column.name) (htext : ∀ c ∈ cols, c.text?.isSome)
    (pre extra : List SqlArg) :
    compileWhere (pre ++ (filters.map fun f => "%" ++ f.value ++ "%").map .text ++ extra)
      (numberedConditions cols (pre.length + 1)) = some fun u => filters.all (·.holds u) := by
  induction filters generalizing cols pre with
  | nil =>
    obtain rfl : cols = [] := List.map_eq_nil_iff.mp hcols.symm
    rfl
  | cons f fs ih =>
    cases cols with
    | nil => simp at hcols
    | cons c cs =>
      simp only [List.map_cons, List.cons.injEq] at hcols
      obtain ⟨field, hfield⟩ := Option.isSome_iff_exists.mp (htext c (List.mem_cons_self c cs))
      have hrest := ih hcols.2 (fun c hc => htext c (List.mem_cons_of_mem _ hc))
        (pre ++ [.text ("%" ++ f.value ++ "%")])
      simp only [List.length_append, List.length_singleton, List.append_assoc, List.singleton_append,
        List.cons_append, List.nil_append] at hrest
      have hbind : bindParam (pre ++ (.text ("%" ++ f.value ++ "%") ::
          ((fs.map fun f => "%" ++ f.value ++ "%").map .text ++ extra)))
          ("$" ++ toString (pre.length + 1)) = some (.text ("%" ++ f.value ++ "%")) := by
        rw [bindParam_numbered, List.getElem?_append_right (le_refl _), Nat.sub_self]
        simp
      simp only [List.map_cons, List.cons_append, List.append_assoc, numberedConditions,
        compileWhere, Condition.compile, hbind, hfield, hrest]
      congr 1
      funext u
      simp [Filter.holds, hcols.1, Column.ofName_name, hfield]

namespace UserRepository

variable {params : ListParams} {cols : List Column}

theorem filterArgs_eq (params : ListParams) :
    filterArgs params = (params.filters.map fun f => "%" ++ f.value ++ "%").map .text := by
  rw [filterArgs, filterClauses_args]

/-- When every filter names a text column, the count is the number of rows every filter's
condition holds of. -/
theorem countAnswer_countQuery (t : Table)
    (hcols : params.filters.map (·.field) = cols.map Column.name) (htext : ∀ c ∈ cols, c.text?.isSome) :
    countAnswer t (countQuery params) (filterArgs params) =
      some (t.rows.countP fun u => params.filters.all (·.holds u)) := by
  have hw := compileWhere_numbered hcols htext [] []
  simp only [List.nil_append, List.append_nil, List.length_nil, Nat.zero_add] at hw
  rw [countAnswer, parseCount_countQuery hcols, filterArgs_eq]
  simp only [Option.bind_eq_bind, Option.some_bind, hw]
  rfl

/-- When every filter names a text column and `OrderBy` names a column, the `SELECT *` keeps the
rows every filter's condition holds of, ordered by that column, from `Offset` on and at most
`Limit` of them; a negative `Limit` or `Offset` is refused. -/
theorem selectPlan_selectQuery (hcols : params.filters.map (·.field) = cols.map Column.name)
    (htext : ∀ c ∈ cols, c.text?.isSome) (c : Column) (hc : params.orderBy = c.name) :
    selectPlan (selectQuery params) (selectArgs params) =
      if 0 ≤ params.limit.toInt ∧ 0 ≤ params.offset.toInt then
        some ⟨fun u => params.filters.all (·.holds u), c, params.orderDesc, params.limit.toNat,
          params.offset.toNat⟩
      else none := by
  have hlen : (filterArgs params).length = cols.length := by
    simpa [filterArgs_eq] using congrArg List.length hcols
  have hw := compileWhere_numbered hcols htext [] [.int params.limit, .int params.offset]
  simp only [List.nil_append, List.length_nil, Nat.zero_add, ← filterArgs_eq] at hw
  have hlim : bindParam (selectArgs params) ("$" ++ toString (cols.length + 1)) =
      some (.int params.limit) := by
    rw [bindParam_numbered, selectArgs, ← hlen, List.getElem?_append_right (le_refl _), Nat.sub_self]
    rfl
  have hoff : bindParam (selectArgs params) ("$" ++ toString (cols.length + 1 + 1)) =
      some (.int params.offset) := by
    rw [bindParam_numbered, selectArgs, ← hlen, List.getElem?_append_right (by omega)]
    simp
  simp only [selectPlan, parseSelect_selectQuery hcols c hc, Option.bind_eq_bind, Option.some_bind,
    selectArgs, hw]
  rw [← selectArgs, hlim, hoff]

end UserRepository

end UsersService
