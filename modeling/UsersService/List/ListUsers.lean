import UsersService.List.Query
import UsersService.Concurrency

/-! `Service.ListUsers`: it keeps the filters on the five allowed fields, replaces an `OrderBy`
that is neither allowed nor a timestamp column by `created_at`, asks the repository's `List`, and
computes `hasMore` in 64-bit arithmetic. An empty `OrderBy` is kept: it reaches the `SELECT *` as
`ORDER BY  ASC`, which does not parse, so such a request always fails. With `OrderBy` set, both
texts are the statements meant, over allowed columns and placeholders `$1 .. $k+2`. A filter's
condition is a case-insensitive substring test when its value holds no `%`, `_` or `\`; with
them, the value is a pattern, and `_` matches any character. -/

namespace UsersService

namespace Service

/-- The keys of `allowedFilters`. -/
def allowedFilters : List String := ["first_name", "last_name", "nickname", "email", "country"]

/-- `ListUsers` up to its call of `List`: the filters on other fields are dropped, and a non-empty
`OrderBy` that is neither allowed nor `created_at` or `updated_at` becomes `created_at`. -/
def sanitize (params : ListParams) : ListParams :=
  { params with
    filters := params.filters.filter fun filter => filter.field ∈ allowedFilters
    orderBy :=
      if params.orderBy ≠ "" then
        if params.orderBy ∉ allowedFilters ∧ params.orderBy ≠ "created_at" ∧
            params.orderBy ≠ "updated_at" then "created_at"
        else params.orderBy
      else params.orderBy }

/-- `params.Limit > 0 && totalCount > int64(params.Offset+params.Limit)`. -/
def hasMore (params : ListParams) (totalCount : BitVec 64) : Bool :=
  0 < params.limit.toInt && (params.offset + params.limit).toInt < totalCount.toInt

/-- `ListUsers`, given what the repository's `List` answers. -/
def listUsers (list : ListParams → Except Err (List User × BitVec 64)) (params : ListParams) :
    Except Err (List User × Bool × BitVec 64) :=
  let params := sanitize params
  match list params with
  | .error err => .error (.wrap "failed to list users" err)
  | .ok (users, totalCount) => .ok (users, hasMore params totalCount, totalCount)

end Service

/-! ### What `ListUsers` hands to `List` -/

section Sanitize

variable (params : ListParams)

@[simp] theorem sanitize_limit : (Service.sanitize params).limit = params.limit := rfl

@[simp] theorem sanitize_offset : (Service.sanitize params).offset = params.offset := rfl

@[simp] theorem sanitize_orderDesc : (Service.sanitize params).orderDesc = params.orderDesc := rfl

theorem listUsers_ok {list : ListParams → Except Err (List User × BitVec 64)} {users : List User}
    {totalCount : BitVec 64} (h : list (Service.sanitize params) = .ok (users, totalCount)) :
    Service.listUsers list params =
      .ok (users, Service.hasMore (Service.sanitize params) totalCount, totalCount) := by
  simp only [Service.listUsers, h]

/-- Each allowed field names a text column. -/
theorem allowed_text_column {field : String} (h : field ∈ Service.allowedFilters) :
    ∃ c : Column, c.name = field ∧ c.text?.isSome := by
  simp only [Service.allowedFilters, List.mem_cons, List.mem_singleton, List.not_mem_nil,
    or_false] at h
  rcases h with rfl | rfl | rfl | rfl | rfl
  exacts [⟨.firstName, rfl, rfl⟩, ⟨.lastName, rfl, rfl⟩, ⟨.nickname, rfl, rfl⟩, ⟨.email, rfl, rfl⟩,
    ⟨.country, rfl, rfl⟩]

theorem sanitize_filters_allowed : ∀ f ∈ (Service.sanitize params).filters,
    f.field ∈ Service.allowedFilters := by
  simp [Service.sanitize]

theorem columns_of_allowed : ∀ {filters : List Filter},
    (∀ f ∈ filters, f.field ∈ Service.allowedFilters) →
    ∃ cols : List Column, filters.map (·.field) = cols.map Column.name ∧ ∀ c ∈ cols, c.text?.isSome
  | [], _ => ⟨[], rfl, by simp⟩
  | f :: fs, h => by
    obtain ⟨cols, hcols, htext⟩ := columns_of_allowed fun g hg => h g (List.mem_cons_of_mem f hg)
    obtain ⟨c, hc, hct⟩ := allowed_text_column (h f (List.mem_cons_self f fs))
    exact ⟨c :: cols, by simp [hcols, hc], List.forall_mem_cons.mpr ⟨hct, htext⟩⟩

/-- The fields of the filters `ListUsers` keeps are the names of text columns. -/
theorem sanitize_columns : ∃ cols : List Column,
    (Service.sanitize params).filters.map (·.field) = cols.map Column.name ∧
      ∀ c ∈ cols, c.text?.isSome :=
  columns_of_allowed (sanitize_filters_allowed params)

/-- The `OrderBy` that `ListUsers` keeps is empty exactly when the request's is, and otherwise
names a column. -/
theorem sanitize_orderBy :
    ((Service.sanitize params).orderBy = "" ∧ params.orderBy = "") ∨
      (params.orderBy ≠ "" ∧ ∃ c : Column, (Service.sanitize params).orderBy = c.name) := by
  by_cases he : params.orderBy = ""
  · exact .inl ⟨by simp [Service.sanitize, he], he⟩
  refine .inr ⟨he, ?_⟩
  simp only [Service.sanitize, ne_eq, he, not_false_eq_true, if_true]
  split
  · exact ⟨.createdAt, rfl⟩
  · rename_i hkeep
    by_cases ha : params.orderBy ∈ Service.allowedFilters
    · obtain ⟨c, hc, -⟩ := allowed_text_column ha
      exact ⟨c, hc.symm⟩
    by_cases hc : params.orderBy = "created_at"
    · exact ⟨.createdAt, hc⟩
    · exact ⟨.updatedAt, by tauto⟩

end Sanitize

/-! ### `hasMore` in 64 bits -/

theorem toInt_of_toNat_lt {x : BitVec 64} (h : x.toNat < 2 ^ 63) : x.toInt = x.toNat := by
  rw [BitVec.toInt_eq_toNat_cond]
  split <;> omega

theorem toInt_ofNat_of_lt {m : Nat} (h : m < 2 ^ 63) : (BitVec.ofNat 64 m).toInt = m := by
  rw [toInt_of_toNat_lt] <;> rw [BitVec.toNat_ofNat, Nat.mod_eq_of_lt (by omega)]
  exact h

theorem toNat_of_toInt_pos {x : BitVec 64} (h : 0 < x.toInt) : x.toNat < 2 ^ 63 ∧ x.toInt = x.toNat := by
  have := x.isLt
  rw [BitVec.toInt_eq_toNat_cond] at *
  split at h <;> simp_all <;> omega

/-- When `Offset + Limit` stays below `2^63`, `hasMore` compares unbounded integers. -/
theorem hasMore_eq_decide (params : ListParams) (totalCount : BitVec 64)
    (h : params.offset.toNat + params.limit.toNat < 2 ^ 63) :
    Service.hasMore params totalCount = decide (0 < params.limit.toNat ∧
      (params.offset.toNat + params.limit.toNat : Int) < totalCount.toInt) := by
  have hsum : (params.offset + params.limit).toNat = params.offset.toNat + params.limit.toNat := by
    rw [BitVec.toNat_add, Nat.mod_eq_of_lt (by omega)]
  rw [Service.hasMore, toInt_of_toNat_lt (by omega : params.limit.toNat < 2 ^ 63),
    toInt_of_toNat_lt (by omega : (params.offset + params.limit).toNat < 2 ^ 63), hsum]
  simp only [Int.natCast_pos, Int.natCast_add, Bool.decide_and]

/-! ### The texts `List` sends -/

/-- For every request whose `OrderBy` is set, the filters `ListUsers` hands `List` are on text
columns, its `OrderBy` names a column, and both texts parse as the statements meant: one
condition per filter on its column, with placeholders `$1 .. $k` in order, and in the `SELECT *`
`ORDER BY` that column, `LIMIT $k+1 OFFSET $k+2`. -/
theorem listUsers_statements_parse (params : ListParams) (h : params.orderBy ≠ "") :
    ∃ cols : List Column, ∃ c : Column,
      (Service.sanitize params).filters.map (·.field) = cols.map Column.name ∧
      (∀ c ∈ cols, c.text?.isSome) ∧ (Service.sanitize params).orderBy = c.name ∧
      parseCount (tokens (UserRepository.countQuery (Service.sanitize params))) =
        some ⟨numberedConditions cols 1⟩ ∧
      parseSelect (tokens (UserRepository.selectQuery (Service.sanitize params))) =
        some ⟨numberedConditions cols 1, c, params.orderDesc, "$" ++ toString (cols.length + 1),
          "$" ++ toString (cols.length + 2)⟩ := by
  obtain ⟨cols, hcols, htext⟩ := sanitize_columns params
  obtain ⟨-, he⟩ | ⟨-, c, hc⟩ := sanitize_orderBy params
  · exact absurd he h
  exact ⟨cols, c, hcols, htext, hc, UserRepository.parseCount_countQuery hcols,
    UserRepository.parseSelect_selectQuery hcols c hc⟩

theorem listUsers_statements_parse_by_country :
    (⟨10, 0, [⟨"country", "GB"⟩, ⟨"page", "1"⟩], "email", true⟩ : ListParams).orderBy ≠ "" ∧
      ∃ cols : List Column, ∃ c : Column,
        (Service.sanitize ⟨10, 0, [⟨"country", "GB"⟩, ⟨"page", "1"⟩], "email", true⟩).filters.map
          (·.field) = cols.map Column.name ∧
        (∀ c ∈ cols, c.text?.isSome) ∧
        (Service.sanitize ⟨10, 0, [⟨"country", "GB"⟩, ⟨"page", "1"⟩], "email", true⟩).orderBy =
          c.name ∧
        parseCount (tokens (UserRepository.countQuery
          (Service.sanitize ⟨10, 0, [⟨"country", "GB"⟩, ⟨"page", "1"⟩], "email", true⟩))) =
            some ⟨numberedConditions cols 1⟩ ∧
        parseSelect (tokens (UserRepository.selectQuery
          (Service.sanitize ⟨10, 0, [⟨"country", "GB"⟩, ⟨"page", "1"⟩], "email", true⟩))) =
            some ⟨numberedConditions cols 1, c, true, "$" ++ toString (cols.length + 1),
              "$" ++ toString (cols.length + 2)⟩ :=
  ⟨by decide, listUsers_statements_parse _ (by decide)⟩

/-- When the database refuses the `SELECT *`, `ListUsers` fails with its error, wrapped by `List`
and by the service: the count it runs first is over text columns, and never refused. -/
theorem listUsers_select_refused {t : Table} {params : ListParams}
    (hplan : selectPlan (UserRepository.selectQuery (Service.sanitize params))
      (UserRepository.selectArgs (Service.sanitize params)) = none)
    {r : Except Err (List User × BitVec 64)} (hr : UserRepository.ListAnswer t (Service.sanitize params) r) :
    ∃ text, Service.listUsers (fun _ => r) params =
      .error (.wrap "failed to list users" (.wrap "error listing users" (.sql text))) := by
  obtain ⟨cols, hcols, htext⟩ := sanitize_columns params
  have hcount := UserRepository.countAnswer_countQuery t hcols htext
  rcases r with err | ⟨users, totalCount⟩
  · rcases hr with ⟨hnone, -⟩ | ⟨-, -, text, rfl⟩
    · simp [hcount] at hnone
    · exact ⟨text, rfl⟩
  · obtain ⟨-, -, -, plan, hsome, -⟩ := hr
    simp [hsome] at hplan

/-- A `ListUsersRequest` with every field unset, as `UserServer.ListUsers` passes it on: page 1 of
10 rows, no filters, and the request's empty `order_by`. -/
def unorderedRequest : ListParams := ⟨10, 0, [], "", false⟩

/-- A request without `OrderBy` reaches the `SELECT *` as `ORDER BY  ASC`, which does not parse:
whatever the table, `ListUsers` fails with the database's error. -/
theorem unordered_request_fails (t : Table) (r : Except Err (List User × BitVec 64))
    (hr : UserRepository.ListAnswer t (Service.sanitize unorderedRequest) r) :
    UserRepository.selectQuery (Service.sanitize unorderedRequest) =
        "SELECT * FROM users ORDER BY  ASC LIMIT $1 OFFSET $2" ∧
      ∃ text, Service.listUsers (fun _ => r) unorderedRequest =
        .error (.wrap "failed to list users" (.wrap "error listing users" (.sql text))) :=
  ⟨by decide, listUsers_select_refused (Option.isNone_iff_eq_none.mp (by decide)) hr⟩

theorem unordered_request_fails_on_empty :
    UserRepository.ListAnswer World.empty.table (Service.sanitize unorderedRequest)
        (.error (.wrap "error listing users" (.sql "syntax error"))) ∧
      UserRepository.selectQuery (Service.sanitize unorderedRequest) =
        "SELECT * FROM users ORDER BY  ASC LIMIT $1 OFFSET $2" ∧
      ∃ text, Service.listUsers (fun _ => .error (.wrap "error listing users" (.sql "syntax error")))
          unorderedRequest =
        .error (.wrap "failed to list users" (.wrap "error listing users" (.sql text))) :=
  have h : UserRepository.ListAnswer World.empty.table (Service.sanitize unorderedRequest)
      (.error (.wrap "error listing users" (.sql "syntax error"))) :=
    .inr ⟨by decide, Option.isNone_iff_eq_none.mp (by decide), _, rfl⟩
  ⟨h, unordered_request_fails _ _ h⟩

/-! ### What a filter keeps -/

/-- A filter on `first_name` for `_`. -/
def underscoreRequest : ListParams := ⟨10, 0, [⟨"first_name", "_"⟩], "created_at", true⟩

end UsersService
