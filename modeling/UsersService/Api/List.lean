import UsersService.List.Pages

/-! The two `ListUsers` handlers up to their call of the service. Both compute
`Offset = (page-1)*limit` in Go's 64-bit `int`. `UserServer.ListUsers` reads `page` and `limit`
from `int32` fields, so the product stays below `2^62`: `Offset` is the product of unbounded
integers, never negative, and `hasMore` compares unbounded integers. `Handler.ListUsers` reads
them with `strconv.Atoi`, which accepts any `int64`: a page of `2^62` and a limit of `4` wrap
`Offset` to `-4`, and a page of `2^61` leaves `Offset + Limit` at `2^63`, which wraps to `-2^63`,
so `hasMore` is true of an empty table. -/

namespace UsersService

/-! ### The REST handler -/

namespace Rest

/-- `strconv.Atoi` on a 64-bit platform: an optional sign, then decimal digits, within `int64`. -/
def atoi (s : String) : Option Int :=
  let (neg, digits) : Bool × List Char :=
    match s.data with
    | '-' :: ds => (true, ds)
    | '+' :: ds => (false, ds)
    | ds => (false, ds)
  let n : Int := if neg then -(decimalValue digits : Int) else decimalValue digits
  if digits ≠ [] ∧ digits.all Char.isDigit ∧ -2 ^ 63 ≤ n ∧ n < 2 ^ 63 then some n else none

/-- `strconv.ParseBool`. -/
def parseBool : String → Option Bool
  | "1" | "t" | "T" | "TRUE" | "true" | "True" => some true
  | "0" | "f" | "F" | "FALSE" | "false" | "False" => some false
  | _ => none

/-- `c.Query(key)`: the key's first value, or `""`. A query is each key with its values, in the
order Go's map iteration gives them. -/
def queryValue (query : List (String × List String)) (key : String) : String :=
  match query.lookup key with
  | some (value :: _) => value
  | _ => ""

/-- `page` and `limit`: the query's value when `Atoi` reads it and it is positive, and otherwise
the default. -/
def positiveOr (value : String) (default : Int) : Int :=
  if value ≠ "" then
    match atoi value with
    | some n => if 0 < n then n else default
    | none => default
  else default

/-- The `ListParams` that `Handler.ListUsers` passes to the service: every query key with a
non-empty first value is a filter. -/
def listParams (query : List (String × List String)) : ListParams :=
  let page : BitVec 64 := BitVec.ofInt 64 (positiveOr (queryValue query "page") 1)
  let limit : BitVec 64 := BitVec.ofInt 64 (positiveOr (queryValue query "limit") 10)
  { limit := limit
    offset := (page - 1) * limit
    orderBy := if queryValue query "order_by" ≠ "" then queryValue query "order_by" else "created_at"
    orderDesc :=
      if queryValue query "order_desc" ≠ "" then (parseBool (queryValue query "order_desc")).getD true
      else true
    filters := query.filterMap fun (key, values) =>
      match values with
      | value :: _ => if value ≠ "" then some ⟨key, value⟩ else none
      | [] => none }

/-- `?page=4611686018427387904&limit=4`: page `2^62`. -/
def wrappingQuery : List (String × List String) := [("page", ["4611686018427387904"]), ("limit", ["4"])]

/-- `?page=2305843009213693952&limit=4`: page `2^61`. -/
def edgeQuery : List (String × List String) := [("page", ["2305843009213693952"]), ("limit", ["4"])]

/-- Page `2^62` of `4` rows wraps `Offset` to `-4`; the database refuses a negative `OFFSET`,
so `ListUsers` fails. Page `2^61` gives `Offset = 2^63 - 4`, whose sum with `Limit` wraps to
`-2^63`: on an empty table `ListUsers` answers no rows, a count of `0`, and `hasMore`. -/
theorem rest_page_overflows (t : Table) (r₁ r₂ : Except Err (List User × BitVec 64))
    (h₁ : UserRepository.ListAnswer t (Service.sanitize (listParams wrappingQuery)) r₁)
    (h₂ : UserRepository.ListAnswer World.empty.table (Service.sanitize (listParams edgeQuery)) r₂) :
    (listParams wrappingQuery).offset.toInt = -4 ∧
    (∃ text, Service.listUsers (fun _ => r₁) (listParams wrappingQuery) =
      .error (.wrap "failed to list users" (.wrap "error listing users" (.sql text)))) ∧
    (listParams edgeQuery).offset.toInt = 2 ^ 63 - 4 ∧
    Service.listUsers (fun _ => r₂) (listParams edgeQuery) = .ok ([], true, 0) := by
  have hcols : (Service.sanitize (listParams edgeQuery)).filters.map (·.field) =
      ([] : List Column).map Column.name := by decide
  have hr₂ := listAnswer_eq hcols (by simp) (by decide : _ = Column.createdAt.name) (by decide)
    (by decide) (by decide : ([] : List User).Perm _) (by decide) (by simp) h₂
  refine ⟨by decide, listUsers_select_refused (Option.isNone_iff_eq_none.mp (by decide)) h₁,
    by decide, ?_⟩
  rw [hr₂]
  rfl

theorem rest_page_overflows_on_empty :
    UserRepository.ListAnswer World.empty.table (Service.sanitize (listParams wrappingQuery))
      (.error (.wrap "error listing users" (.sql "OFFSET must not be negative"))) ∧
    UserRepository.ListAnswer World.empty.table (Service.sanitize (listParams edgeQuery))
      (sliceAnswer [] (Service.sanitize (listParams edgeQuery))) ∧
    (listParams wrappingQuery).offset.toInt = -4 ∧
    (∃ text, Service.listUsers (fun _ => .error (.wrap "error listing users"
        (.sql "OFFSET must not be negative"))) (listParams wrappingQuery) =
      .error (.wrap "failed to list users" (.wrap "error listing users" (.sql text)))) ∧
    (listParams edgeQuery).offset.toInt = 2 ^ 63 - 4 ∧
    Service.listUsers (fun _ => sliceAnswer [] (Service.sanitize (listParams edgeQuery)))
      (listParams edgeQuery) = .ok ([], true, 0) :=
  have h₁ : UserRepository.ListAnswer World.empty.table (Service.sanitize (listParams wrappingQuery))
      (.error (.wrap "error listing users" (.sql "OFFSET must not be negative"))) :=
    .inr ⟨by decide, Option.isNone_iff_eq_none.mp (by decide), _, rfl⟩
  have h₂ : UserRepository.ListAnswer World.empty.table (Service.sanitize (listParams edgeQuery))
      (sliceAnswer [] (Service.sanitize (listParams edgeQuery))) :=
    listAnswer_of_sorted (by decide : _ = ([] : List Column).map Column.name) (by simp)
      (by decide : _ = Column.createdAt.name) (by decide) (by decide) (by decide) (by decide)
  ⟨h₁, h₂, rest_page_overflows _ _ _ h₁ h₂⟩

end Rest

/-! ### The gRPC handler -/

/-- `userpb.ListUsersRequest`. -/
structure ListUsersRequest where
  limit : BitVec 32
  page : BitVec 32
  filters : List Filter
  orderBy : String
  orderDesc : Bool
  deriving DecidableEq

namespace Grpc

/-- The `ListParams` that `UserServer.ListUsers` passes to the service: the filters with a
value, and `int(req.Page)`, `int(req.Limit)` sign-extended when positive. -/
def listParams (req : ListUsersRequest) : ListParams :=
  let page : BitVec 64 := if 0 < req.page.toInt then req.page.signExtend 64 else 1
  let limit : BitVec 64 := if 0 < req.limit.toInt then req.limit.signExtend 64 else 10
  { limit := limit
    offset := (page - 1) * limit
    orderBy := req.orderBy
    orderDesc := req.orderDesc
    filters := req.filters.filter fun filter => filter.value ≠ "" }

example : listParams ⟨0, 0, [], "", false⟩ = unorderedRequest := by decide

/-- A positive `int32`, widened to `int`. -/
theorem toNat_signExtend_of_pos {x : BitVec 32} (h : 0 < x.toInt) :
    (x.signExtend 64).toNat = x.toNat ∧ 0 < x.toNat ∧ x.toNat < 2 ^ 31 ∧ x.toInt = x.toNat := by
  have := x.isLt
  rw [BitVec.toInt_eq_toNat_cond] at h ⊢
  split at h
  · rw [BitVec.signExtend, BitVec.toNat_ofInt, BitVec.toInt_eq_toNat_cond, if_pos ‹_›]
    omega
  · omega

/-- A positive `int32` widened to `int`, or a default. -/
theorem widen_toNat (x : BitVec 32) {dv : BitVec 64} {di : Int} {d : Nat} (hdv : dv.toNat = d)
    (hdi : di = d) (hd : 0 < d) (hd' : d < 2 ^ 31) :
    ∃ n : Nat, 0 < n ∧ n < 2 ^ 31 ∧ (if 0 < x.toInt then x.toInt else di) = n ∧
      (if 0 < x.toInt then x.signExtend 64 else dv).toNat = n := by
  split
  · obtain ⟨h1, h2, h3, h4⟩ := toNat_signExtend_of_pos ‹_›
    exact ⟨x.toNat, h2, h3, h4, h1⟩
  · exact ⟨d, hd, hd', hdi, hdv⟩

/-- The page and limit `UserServer.ListUsers` uses are between `1` and `2^31 - 1`, and `Offset`
is their product less one limit, below `2^62`. -/
theorem page_limit_toNat (req : ListUsersRequest) :
    ∃ page limit : Nat, 0 < page ∧ 0 < limit ∧ limit < 2 ^ 31 ∧ (page - 1) * limit < 2 ^ 62 ∧
      (if 0 < req.page.toInt then req.page.toInt else 1) = page ∧
      (if 0 < req.limit.toInt then req.limit.toInt else 10) = limit ∧
      (listParams req).limit.toNat = limit ∧
      (listParams req).offset.toNat = (page - 1) * limit := by
  obtain ⟨p, hp0, hp1, hp, hpn⟩ := widen_toNat req.page (rfl : (1 : BitVec 64).toNat = 1)
    (rfl : (1 : Int) = (1 : Nat)) (by decide) (by decide)
  obtain ⟨l, hl0, hl1, hl, hln⟩ := widen_toNat req.limit (rfl : (10 : BitVec 64).toNat = 10)
    (rfl : (10 : Int) = (10 : Nat)) (by decide) (by decide)
  have hprod : (p - 1) * l < 2 ^ 62 :=
    calc (p - 1) * l < 2 ^ 31 * 2 ^ 31 := Nat.mul_lt_mul'' (by omega) hl1
      _ = 2 ^ 62 := by norm_num
  have hsub : ((if 0 < req.page.toInt then req.page.signExtend 64 else 1) - 1 : BitVec 64).toNat =
      p - 1 := by
    rw [BitVec.toNat_sub, hpn]
    change (2 ^ 64 - 1 + p) % 2 ^ 64 = p - 1
    omega
  refine ⟨p, l, hp0, hl0, hl1, hprod, hp, hl, hln, ?_⟩
  simp only [listParams, BitVec.toNat_mul, hsub, hln]
  exact Nat.mod_eq_of_lt (by omega)

/-- From every `ListUsersRequest`, `UserServer.ListUsers` passes the service the product of
unbounded integers as `Offset`, never negative, and the service's `hasMore` is, for every count,
the comparison `Offset + Limit < totalCount` of unbounded integers. -/
theorem grpc_offset_exact (req : ListUsersRequest) (totalCount : BitVec 64) :
    (listParams req).limit.toInt = (if 0 < req.limit.toInt then req.limit.toInt else 10) ∧
    (listParams req).offset.toInt =
      ((if 0 < req.page.toInt then req.page.toInt else 1) - 1) *
        (if 0 < req.limit.toInt then req.limit.toInt else 10) ∧
    0 ≤ (listParams req).offset.toInt ∧
    Service.hasMore (Service.sanitize (listParams req)) totalCount =
      decide ((listParams req).offset.toInt + (listParams req).limit.toInt < totalCount.toInt) := by
  obtain ⟨p, l, hp0, hl0, hl1, hprod, hp, hl, hln, hoff⟩ := page_limit_toNat req
  have hlim : (listParams req).limit.toInt = l := by rw [toInt_of_toNat_lt (by omega), hln]
  have hoffInt : (listParams req).offset.toInt = ((p - 1) * l : Nat) := by
    rw [toInt_of_toNat_lt (by omega), hoff]
  rw [hp, hl, hlim, hoffInt, hasMore_eq_decide _ _ (by simp only [sanitize_offset, sanitize_limit]; omega)]
  refine ⟨rfl, by push_cast [Nat.cast_sub hp0]; ring, Int.natCast_nonneg _, ?_⟩
  simp only [sanitize_offset, sanitize_limit, hoff, hln]
  exact decide_eq_decide.mpr (by push_cast; omega)

end Grpc

/-! ### One listing over both front-ends -/

/-- `strconv.Atoi` reads back the decimal numeral of a natural number within `int64`. -/
theorem Rest.atoi_natString {n : Nat} (hn : n < 2 ^ 63) : Rest.atoi (toString n) = some (n : Int) := by
  obtain ⟨hv, hd, hne⟩ := toString_decimal n
  unfold Rest.atoi
  rcases hs : (toString n).data with _ | ⟨c, ds⟩
  · exact absurd hs hne
  have hc : c.isDigit = true := hd c (by simp [hs])
  rw [hs] at hv hd
  split
  rename_i neg digits h
  split at h
  case h_1 | h_2 =>
    rename_i _ heq
    cases heq
    exact absurd hc (by decide)
  · obtain ⟨rfl, rfl⟩ := Prod.mk.inj h
    simp only [Bool.false_eq_true, if_false, hv]
    rw [if_pos ⟨List.cons_ne_nil _ _, List.all_eq_true.mpr hd, by omega, by omega⟩]

/-- `strconv.Atoi` reads back what Go's `strconv.Itoa` prints of every `int64`. -/
theorem Rest.atoi_toString {x : Int} (hlo : -2 ^ 63 ≤ x) (hhi : x < 2 ^ 63) :
    Rest.atoi (toString x) = some x := by
  cases x with
  | ofNat n => exact atoi_natString (by rw [Int.ofNat_eq_coe] at hhi; omega)
  | negSucc m =>
    obtain ⟨hv, hd, hne⟩ := toString_decimal (m + 1)
    have hneg : Int.negSucc m = -((m + 1 : Nat) : Int) := rfl
    rw [hneg] at hlo
    have hdata : (toString (Int.negSucc m)).data = '-' :: (toString (m + 1)).data := rfl
    unfold Rest.atoi
    rw [hdata]
    split
    rename_i neg digits h
    split at h
    · rename_i _ heq
      obtain ⟨rfl, rfl⟩ := Prod.mk.inj h
      cases (List.cons.inj heq).2
      rw [if_pos rfl, hv, if_pos ⟨hne, List.all_eq_true.mpr hd, by omega, by omega⟩]
      rfl
    · rename_i _ heq
      exact absurd (List.cons.inj heq).1 (by decide)
    · rename_i h' _
      exact absurd rfl (h' _)

theorem int32_toInt_bounds (x : BitVec 32) : -2 ^ 63 ≤ x.toInt ∧ x.toInt < 2 ^ 63 := by
  have := x.isLt
  rw [BitVec.toInt_eq_toNat_cond]
  split <;> omega

theorem Rest.atoi_int32 (x : BitVec 32) : Rest.atoi (toString x.toInt) = some x.toInt :=
  atoi_toString (int32_toInt_bounds x).1 (int32_toInt_bounds x).2

theorem Rest.int32_toString_ne_empty (x : BitVec 32) : toString x.toInt ≠ "" := fun he => by
  have hatoi := atoi_int32 x
  rw [he] at hatoi
  cases hatoi

/-- A printed `int32` read as `page` or `limit`, widened to `int`: the value when positive, and
otherwise the default, as `UserServer.ListUsers` has it. -/
theorem Rest.ofInt_positiveOr (x : BitVec 32) (d : Int) (dv : BitVec 64) (hd : BitVec.ofInt 64 d = dv) :
    BitVec.ofInt 64 (Rest.positiveOr (toString x.toInt) d) =
      if 0 < x.toInt then x.signExtend 64 else dv := by
  simp only [positiveOr, ne_eq, int32_toString_ne_empty, not_false_eq_true, if_true, atoi_int32]
  split <;> first | rfl | exact hd

theorem Rest.parseBool_toString (b : Bool) : Rest.parseBool (toString b) = some b := by
  cases b <;> rfl

theorem Rest.bool_toString_ne_empty (b : Bool) : toString b ≠ "" := by
  cases b <;> decide

namespace Rest

/-- The query a client sends over REST for the listing a gRPC `ListUsersRequest` asks for:
its page, limit, order and direction under their keys, then each filter under its field, in the
request's order (one of the orders Go's map iteration may give). -/
def queryOf (req : ListUsersRequest) : List (String × List String) :=
  [("page", [toString req.page.toInt]), ("limit", [toString req.limit.toInt]),
    ("order_by", [req.orderBy]), ("order_desc", [toString req.orderDesc])] ++
  req.filters.map fun f => (f.field, [f.value])

/-- The filters `Handler.ListUsers` reads off the keys of `queryOf` it also reads as
parameters. -/
def reservedFilters (req : ListUsersRequest) : List Filter :=
  [⟨"page", toString req.page.toInt⟩, ⟨"limit", toString req.limit.toInt⟩, ⟨"order_by", req.orderBy⟩,
    ⟨"order_desc", toString req.orderDesc⟩]

end Rest

theorem Rest.filters_queryOf (req : ListUsersRequest) (h : req.orderBy ≠ "") :
    (Rest.listParams (Rest.queryOf req)).filters =
      Rest.reservedFilters req ++ req.filters.filter fun f => f.value ≠ "" := by
  simp [Rest.listParams, Rest.queryOf, Rest.reservedFilters, h, bool_toString_ne_empty,
    int32_toString_ne_empty, List.filterMap_map]
  rw [← List.filterMap_eq_filter]
  congr 1
  funext f
  by_cases hv : f.value = "" <;> simp [hv, Option.guard]

/-- Given the query of a request with an `OrderBy`, `Handler.ListUsers` passes the service
what `UserServer.ListUsers` passes it, and four filters more, on the reserved keys. -/
theorem Rest.listParams_queryOf (req : ListUsersRequest) (h : req.orderBy ≠ "") :
    Rest.listParams (Rest.queryOf req) =
      { Grpc.listParams req with filters := Rest.reservedFilters req ++ (Grpc.listParams req).filters } := by
  have hf := Rest.filters_queryOf req h
  simp only [Rest.listParams, Grpc.listParams] at hf ⊢
  rw [show Rest.queryValue (Rest.queryOf req) "page" = toString req.page.toInt from rfl,
    show Rest.queryValue (Rest.queryOf req) "limit" = toString req.limit.toInt from rfl,
    show Rest.queryValue (Rest.queryOf req) "order_by" = req.orderBy from rfl,
    show Rest.queryValue (Rest.queryOf req) "order_desc" = toString req.orderDesc from rfl,
    Rest.ofInt_positiveOr req.page 1 1 rfl, Rest.ofInt_positiveOr req.limit 10 10 rfl,
    Rest.parseBool_toString, hf]
  simp [h, Rest.bool_toString_ne_empty]

/-- Filters on fields `ListUsers` does not allow change nothing it hands to `List`. -/
theorem sanitize_append_disallowed (params : ListParams) {fs : List Filter}
    (h : ∀ f ∈ fs, f.field ∉ Service.allowedFilters) :
    Service.sanitize { params with filters := fs ++ params.filters } = Service.sanitize params := by
  have hnil : fs.filter (fun f => decide (f.field ∈ Service.allowedFilters)) = [] :=
    List.filter_eq_nil_iff.mpr fun f hf => by simpa using h f hf
  simp only [Service.sanitize, List.filter_append, hnil, List.nil_append]

theorem Rest.sanitize_listParams_queryOf (req : ListUsersRequest) (h : req.orderBy ≠ "") :
    Service.sanitize (Rest.listParams (Rest.queryOf req)) = Service.sanitize (Grpc.listParams req) := by
  rw [Rest.listParams_queryOf req h]
  exact sanitize_append_disallowed _ (by simp [Rest.reservedFilters, Service.allowedFilters])

end UsersService
