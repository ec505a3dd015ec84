import UsersService.List.ListUsers

/-! Walking the pages of `ListUsers`: a client asks for `Offset = 0, Limit, 2 * Limit, ...` while
the table does not change. Each `SELECT *` may put rows with equal values of the `ORDER BY` column
in any order, and two requests need not agree, so one row can come on two pages and another on
none. When no two matching rows tie on that column, the kept rows have one sorted order, and the
pages are its consecutive slices: they are disjoint, together they are the matching rows, each
once, `totalCount` counts them, and `hasMore` is true exactly on the pages followed by a non-empty
one, as long as `Offset + Limit` fits in an `int64`. -/

namespace UsersService

/-- The request for page `i` of a walk: `Offset = i * Limit`. -/
def pageParams (params : ListParams) (i : Nat) : ListParams :=
  { params with offset := BitVec.ofNat 64 (i * params.limit.toNat) }

@[simp] theorem sanitize_pageParams (params : ListParams) (i : Nat) :
    Service.sanitize (pageParams params i) =
      { Service.sanitize params with offset := BitVec.ofNat 64 (i * params.limit.toNat) } := rfl

/-- On a page of a walk, `hasMore` is the comparison of unbounded integers. -/
theorem hasMore_of_lt {params : ListParams} {a m : Nat} (hL : 0 < params.limit.toInt)
    (ha : a + params.limit.toNat < 2 ^ 63) (hm : m < 2 ^ 63) :
    Service.hasMore { params with offset := BitVec.ofNat 64 a } (BitVec.ofNat 64 m) =
      decide (a + params.limit.toNat < m) := by
  obtain ⟨-, hLnat⟩ := toNat_of_toInt_pos hL
  have hoff : (BitVec.ofNat 64 a).toNat = a := by rw [BitVec.toNat_ofNat, Nat.mod_eq_of_lt (by omega)]
  rw [hasMore_eq_decide _ _ (by dsimp only; omega)]
  dsimp only
  rw [hoff, toInt_ofNat_of_lt hm]
  exact decide_eq_decide.mpr (by omega)

/-! ### One request -/

/-- The database's answer to a request when it orders the kept rows as `out`. -/
def sliceAnswer (out : List User) (params : ListParams) : Except Err (List User × BitVec 64) :=
  .ok ((out.drop params.offset.toNat).take params.limit.toNat, BitVec.ofNat 64 out.length)

section Request

variable {t : Table} {params : ListParams} {cols : List Column} {c : Column}
  (hcols : params.filters.map (·.field) = cols.map Column.name) (htext : ∀ c ∈ cols, c.text?.isSome)
  (hc : params.orderBy = c.name)
include hcols htext hc

/-- The database may answer a request with any sorted order of the kept rows, cut as `Offset`
and `Limit` say. -/
theorem listAnswer_of_sorted (hlim : 0 ≤ params.limit.toInt) (hoff : 0 ≤ params.offset.toInt)
    {out : List User} (hperm : out.Perm (t.rows.filter fun u => params.filters.all (·.holds u)))
    (hsorted : out.Sorted (c.before params.orderDesc)) :
    UserRepository.ListAnswer t params (sliceAnswer out params) := by
  have hplan := UserRepository.selectPlan_selectQuery hcols htext c hc
  rw [if_pos ⟨hlim, hoff⟩] at hplan
  exact ⟨_, UserRepository.countAnswer_countQuery t hcols htext,
    by rw [List.countP_eq_length_filter, hperm.length_eq], _, hplan, out, hperm, hsorted, rfl⟩

/-- When no two kept rows tie on the order column, every answer the database may give is the
slice of the one sorted order of the kept rows, with their number. -/
theorem listAnswer_eq (hlim : 0 ≤ params.limit.toInt) (hoff : 0 ≤ params.offset.toInt)
    {out : List User} (hperm : out.Perm (t.rows.filter fun u => params.filters.all (·.holds u)))
    (hsorted : out.Sorted (c.before params.orderDesc))
    (hties : ∀ a ∈ out, ∀ b ∈ out, c.cell a = c.cell b → a = b)
    {r : Except Err (List User × BitVec 64)} (hr : UserRepository.ListAnswer t params r) :
    r = sliceAnswer out params := by
  have hcount := UserRepository.countAnswer_countQuery t hcols htext
  have hplan := UserRepository.selectPlan_selectQuery hcols htext c hc
  rw [if_pos ⟨hlim, hoff⟩] at hplan
  rcases r with err | ⟨users, totalCount⟩
  · rcases hr with ⟨hnone, -⟩ | ⟨-, hnone, -⟩
    · simp [hcount] at hnone
    · simp [hplan] at hnone
  · obtain ⟨m, hm, rfl, plan, hp, out', hperm', hsorted', rfl⟩ := hr
    rw [hcount, Option.some_inj] at hm
    rw [hplan, Option.some_inj] at hp
    subst hm hp
    have hout : out' = out := eq_of_perm_of_sorted (hperm'.trans hperm.symm) hsorted' hsorted
      fun a ha b hb hab hba => hties a (hperm'.trans hperm.symm |>.subset ha) b
        (hperm'.trans hperm.symm |>.subset hb) (Column.cell_eq_of_before hab hba)
    rw [hout, List.countP_eq_length_filter, ← hperm.length_eq]
    rfl

end Request

/-! ### A walk over the pages -/

/-- The pages of a walk, one after another, are the first rows of the order they cut. -/
theorem flatten_pages (out : List User) (limit : Nat) : ∀ n : Nat,
    ((List.range n).map fun i => (out.drop (i * limit)).take limit).flatten = out.take (n * limit)
  | 0 => by simp
  | n + 1 => by
    rw [List.range_succ, List.map_append, List.flatten_append, flatten_pages out limit n,
      Nat.succ_mul, List.take_add]
    simp

theorem nodup_rows (t : Table) : t.rows.Nodup :=
  t.unique.imp fun h heq => h.1 (congrArg User.id heq)

/-- Page `i` of a walk, whatever the database answered: the `i`-th slice of the one sorted order
of the kept rows, their number, and whether a row comes after the page. -/
theorem listUsers_page {t : Table} {params : ListParams} {c : Column}
    {list : ListParams → Except Err (List User × BitVec 64)} {out : List User}
    (hc : (Service.sanitize params).orderBy = c.name) (hL : 0 < params.limit.toInt)
    (hperm : out.Perm (t.rows.filter fun u => (Service.sanitize params).filters.all (·.holds u)))
    (hsorted : out.Sorted (c.before params.orderDesc))
    (hties : ∀ a ∈ out, ∀ b ∈ out, c.cell a = c.cell b → a = b) (hlen : out.length < 2 ^ 63)
    {i : Nat} (hpage : i * params.limit.toNat + params.limit.toNat < 2 ^ 63)
    (hans : UserRepository.ListAnswer t (Service.sanitize (pageParams params i))
      (list (Service.sanitize (pageParams params i)))) :
    Service.listUsers list (pageParams params i) =
      .ok ((out.drop (i * params.limit.toNat)).take params.limit.toNat,
        decide ((i + 1) * params.limit.toNat < out.length), BitVec.ofNat 64 out.length) := by
  obtain ⟨cols, hcols, htext⟩ := sanitize_columns params
  have hoff : 0 ≤ (BitVec.ofNat 64 (i * params.limit.toNat)).toInt := by
    rw [toInt_ofNat_of_lt (by omega)]
    omega
  have hr := listAnswer_eq
    (show (Service.sanitize (pageParams params i)).filters.map (·.field) = cols.map Column.name
      from hcols) htext hc hL.le hoff hperm hsorted hties hans
  rw [listUsers_ok _ hr, sanitize_pageParams, @hasMore_of_lt (Service.sanitize params) _ _ hL hpage hlen,
    Nat.add_one_mul]
  simp (disch := omega) [BitVec.toNat_ofNat, Nat.mod_eq_of_lt]

/-- A client walks `n` pages of `Limit` rows, the last ending below `2^63`, while the table holds
fewer than `2^63` rows, none of the kept ones tying with another on the order column. Then there is
one sorted order of the kept rows, without repeats; the walk's pages are its consecutive slices, so
together they are its first `n * Limit` rows; each page's `totalCount` is their number, and
`hasMore` says whether a row comes after the page. -/
theorem listUsers_pages_enumerate (t : Table) (params : ListParams) (c : Column)
    (list : ListParams → Except Err (List User × BitVec 64))
    (hc : (Service.sanitize params).orderBy = c.name) (hL : 0 < params.limit.toInt)
    (hsize : t.rows.length < 2 ^ 63)
    (hties : ∀ a ∈ t.rows, ∀ b ∈ t.rows, (Service.sanitize params).filters.all (·.holds a) →
      (Service.sanitize params).filters.all (·.holds b) → c.cell a = c.cell b → a = b)
    (n : Nat) (hn : n * params.limit.toNat < 2 ^ 63)
    (hlist : ∀ i < n, UserRepository.ListAnswer t (Service.sanitize (pageParams params i))
      (list (Service.sanitize (pageParams params i)))) :
    ∃ out : List User,
      out.Perm (t.rows.filter fun u => (Service.sanitize params).filters.all (·.holds u)) ∧
      out.Sorted (c.before params.orderDesc) ∧ out.Nodup ∧
      ((List.range n).map fun i => (out.drop (i * params.limit.toNat)).take params.limit.toNat).flatten =
        out.take (n * params.limit.toNat) ∧
      ∀ i < n, Service.listUsers list (pageParams params i) =
        .ok ((out.drop (i * params.limit.toNat)).take params.limit.toNat,
          decide ((i + 1) * params.limit.toNat < out.length), BitVec.ofNat 64 out.length) := by
  obtain ⟨out, hperm, hsorted⟩ : ∃ out : List User,
      out.Perm (t.rows.filter fun u => (Service.sanitize params).filters.all (·.holds u)) ∧
        out.Sorted (c.before params.orderDesc) :=
    ⟨_, List.perm_insertionSort _ _, List.sorted_insertionSort _ _⟩
  have hsub : ∀ u ∈ out, u ∈ t.rows ∧ (Service.sanitize params).filters.all (·.holds u) :=
    fun u hu => List.mem_filter.mp (hperm.subset hu)
  have hlen : out.length < 2 ^ 63 :=
    hperm.length_eq ▸ lt_of_le_of_lt (List.length_filter_le _ _) hsize
  refine ⟨out, hperm, hsorted, hperm.nodup_iff.mpr ((nodup_rows t).filter _), flatten_pages _ _ n,
    fun i hi => listUsers_page hc hL hperm hsorted
      (fun a ha b hb => hties a (hsub a ha).1 b (hsub b hb).1 (hsub a ha).2 (hsub b hb).2) hlen ?_
      (hlist i hi)⟩
  calc i * params.limit.toNat + params.limit.toNat = (i + 1) * params.limit.toNat :=
        (Nat.succ_mul i _).symm
    _ ≤ n * params.limit.toNat := Nat.mul_le_mul_right _ hi
    _ < 2 ^ 63 := hn

/-! ### Two rows -/

/-- A table of Alice and Bob. -/
def pairTable : Table := ⟨[alice, bob], List.pairwise_pair.mpr ⟨by decide, by decide, by decide⟩⟩

/-- One-row pages, oldest change first. -/
def byUpdate : ListParams := ⟨1, 0, [], "updated_at", false⟩

theorem listUsers_pages_enumerate_by_update :
    (Service.sanitize byUpdate).orderBy = Column.updatedAt.name ∧ 0 < byUpdate.limit.toInt ∧
    pairTable.rows.length < 2 ^ 63 ∧
    (∀ a ∈ pairTable.rows, ∀ b ∈ pairTable.rows, (Service.sanitize byUpdate).filters.all (·.holds a) →
      (Service.sanitize byUpdate).filters.all (·.holds b) → Column.updatedAt.cell a = Column.updatedAt.cell b →
        a = b) ∧
    2 * byUpdate.limit.toNat < 2 ^ 63 ∧
    (∀ i < 2, UserRepository.ListAnswer pairTable (Service.sanitize (pageParams byUpdate i))
      (sliceAnswer [alice, bob] (Service.sanitize (pageParams byUpdate i)))) ∧
    ∃ out : List User,
      out.Perm (pairTable.rows.filter fun u => (Service.sanitize byUpdate).filters.all (·.holds u)) ∧
      out.Sorted (Column.updatedAt.before byUpdate.orderDesc) ∧ out.Nodup ∧
      ((List.range 2).map fun i => (out.drop (i * byUpdate.limit.toNat)).take byUpdate.limit.toNat).flatten =
        out.take (2 * byUpdate.limit.toNat) ∧
      ∀ i < 2, Service.listUsers (sliceAnswer [alice, bob]) (pageParams byUpdate i) =
        .ok ((out.drop (i * byUpdate.limit.toNat)).take byUpdate.limit.toNat,
          decide ((i + 1) * byUpdate.limit.toNat < out.length), BitVec.ofNat 64 out.length) := by
  have hlist : ∀ i < 2, UserRepository.ListAnswer pairTable (Service.sanitize (pageParams byUpdate i))
      (sliceAnswer [alice, bob] (Service.sanitize (pageParams byUpdate i)))
    | 0, _ => listAnswer_of_sorted (by rfl : _ = ([] : List Column).map Column.name) (by simp)
      (by rfl : _ = Column.updatedAt.name) (by decide) (by decide) (by decide)
      (by decide)
    | 1, _ => listAnswer_of_sorted (by rfl : _ = ([] : List Column).map Column.name) (by simp)
      (by rfl : _ = Column.updatedAt.name) (by decide) (by decide) (by decide)
      (by decide)
    | _ + 2, h => absurd h (by omega)
  exact ⟨by decide, by decide, by decide, by decide, by decide, hlist,
    listUsers_pages_enumerate pairTable byUpdate .updatedAt _ (by decide) (by decide) (by decide)
      (by decide) 2 (by decide) hlist⟩

/-- One-row pages, newest first: Alice and Bob tie. -/
def byCreation : ListParams := ⟨1, 0, [], "created_at", true⟩

/-- Ordered by sign-up time, Alice and Bob tie, and the database may order them differently for
the two requests of a walk of one-row pages: both pages are Alice, Bob is on none, and the first
page says that more rows follow. -/
theorem tied_walk_repeats_alice :
    (∀ i < 2, UserRepository.ListAnswer pairTable (Service.sanitize (pageParams byCreation i))
      (.ok ([alice], 2))) ∧
    Service.listUsers (fun _ => .ok ([alice], 2)) (pageParams byCreation 0) = .ok ([alice], true, 2) ∧
    Service.listUsers (fun _ => .ok ([alice], 2)) (pageParams byCreation 1) = .ok ([alice], false, 2) := by
  refine ⟨fun i hi => ?_, rfl, rfl⟩
  have hcols : (Service.sanitize (pageParams byCreation i)).filters.map (·.field) =
      ([] : List Column).map Column.name := rfl
  match i, hi with
  | 0, _ =>
    have h : UserRepository.ListAnswer pairTable (Service.sanitize (pageParams byCreation 0))
        (sliceAnswer [alice, bob] (Service.sanitize (pageParams byCreation 0))) :=
      listAnswer_of_sorted hcols (by simp) (rfl : _ = Column.createdAt.name) (by decide) (by decide)
        (by decide) (by decide)
    exact h
  | 1, _ =>
    have h : UserRepository.ListAnswer pairTable (Service.sanitize (pageParams byCreation 1))
        (sliceAnswer [bob, alice] (Service.sanitize (pageParams byCreation 1))) :=
      listAnswer_of_sorted hcols (by simp) (rfl : _ = Column.createdAt.name) (by decide) (by decide)
        (by decide) (by decide)
    exact h

end UsersService
