import Mathlib.Data.List.Basic

/-! The `uuid.UUID` values of `github.com/google/uuid` and the text `UUID.String` gives for them:
the sixteen bytes in lowercase hex, in groups of 8, 4, 4, 4 and 12 digits separated by dashes.
The text determines the bytes, and it is made of hex digits and dashes only; the cache keys of
`internal/repository/cache` depend on both facts. -/

namespace UsersService

/-- A `uuid.UUID`, which Go declares as `[16]byte`. -/
structure UUID where
  bytes : List UInt8
  length_eq : bytes.length = 16
  deriving DecidableEq

/-- The lowercase hex digit of `n < 16`, as `encoding/hex` writes it. -/
def hexDigit (n : Nat) : Char := Char.ofNat (if n < 10 then 48 + n else 87 + n)

/-- `hex.Encode`: two digits per byte, high nibble first. -/
def hexEncode : List UInt8 → List Char
  | [] => []
  | b :: bs => hexDigit (b.toNat / 16) :: hexDigit (b.toNat % 16) :: hexEncode bs

/-- `UUID.String` (`encodeHex`): bytes `[0:4]`, `[4:6]`, `[6:8]`, `[8:10]` and `[10:]` in hex,
with a dash between groups. -/
def UUID.toString (u : UUID) : String :=
  ⟨hexEncode (u.bytes.take 4) ++ '-' :: hexEncode ((u.bytes.drop 4).take 2) ++
    '-' :: hexEncode ((u.bytes.drop 6).take 2) ++ '-' :: hexEncode ((u.bytes.drop 8).take 2) ++
    '-' :: hexEncode (u.bytes.drop 10)⟩

/-- The characters a UUID's text is made of. -/
def uuidAlphabet : List Char := "0123456789abcdef-".data

theorem hexDigit_injective : ∀ a b : Fin 16, hexDigit a = hexDigit b → a = b := by decide

theorem hexDigit_mem_alphabet : ∀ a : Fin 16, hexDigit a ∈ uuidAlphabet := by decide

theorem hexDigit_ne_dash : ∀ a : Fin 16, hexDigit a ≠ '-' := by decide

@[simp] theorem hexEncode_append (a b : List UInt8) :
    hexEncode (a ++ b) = hexEncode a ++ hexEncode b := by
  induction a with
  | nil => rfl
  | cons x xs ih => simp [hexEncode, ih]

theorem hexByte_injective {b c : UInt8} (hi : hexDigit (b.toNat / 16) = hexDigit (c.toNat / 16))
    (lo : hexDigit (b.toNat % 16) = hexDigit (c.toNat % 16)) : b = c := by
  have hb : b.toNat < 256 := b.toNat_lt_size
  have hc : c.toNat < 256 := c.toNat_lt_size
  have h1 := hexDigit_injective ⟨_, by omega⟩ ⟨_, by omega⟩ hi
  have h2 := hexDigit_injective ⟨_, Nat.mod_lt _ (by omega)⟩ ⟨_, Nat.mod_lt _ (by omega)⟩ lo
  simp only [Fin.mk.injEq] at h1 h2
  exact UInt8.toNat.inj (by omega)

theorem hexEncode_injective : ∀ {a b : List UInt8}, hexEncode a = hexEncode b → a = b
  | [], [], _ => rfl
  | [], _ :: _, h | _ :: _, [], h => by simp [hexEncode] at h
  | x :: xs, y :: ys, h => by
    simp only [hexEncode, List.cons.injEq] at h
    rw [hexByte_injective h.1 h.2.1, hexEncode_injective h.2.2]

theorem mem_hexEncode {l : List UInt8} {c : Char} (h : c ∈ hexEncode l) :
    ∃ a : Fin 16, hexDigit a = c := by
  induction l with
  | nil => simp [hexEncode] at h
  | cons b bs ih =>
    simp only [hexEncode, List.mem_cons] at h
    rcases h with rfl | rfl | h
    · exact ⟨⟨_, by have : b.toNat < 256 := b.toNat_lt_size; omega⟩, rfl⟩
    · exact ⟨⟨_, Nat.mod_lt _ (by omega)⟩, rfl⟩
    · exact ih h

theorem filter_hexEncode (l : List UInt8) : (hexEncode l).filter (· != '-') = hexEncode l := by
  refine List.filter_eq_self.mpr fun c hc => ?_
  obtain ⟨a, rfl⟩ := mem_hexEncode hc
  simpa using hexDigit_ne_dash a

/-- Dropping the dashes from a UUID's text leaves the hex digits of all sixteen bytes. -/
theorem filter_toString (u : UUID) : u.toString.data.filter (· != '-') = hexEncode u.bytes := by
  have split : u.bytes.take 4 ++ ((u.bytes.drop 4).take 2 ++ ((u.bytes.drop 6).take 2 ++
      ((u.bytes.drop 8).take 2 ++ u.bytes.drop 10))) = u.bytes := by
    rw [show u.bytes.drop 10 = (u.bytes.drop 8).drop 2 by simp, List.take_append_drop,
      show u.bytes.drop 8 = (u.bytes.drop 6).drop 2 by simp, List.take_append_drop,
      show u.bytes.drop 6 = (u.bytes.drop 4).drop 2 by simp, List.take_append_drop,
      List.take_append_drop]
  conv_rhs => rw [← split]
  simp [UUID.toString, List.filter_append, filter_hexEncode]

/-- `UUID.String` is injective. -/
theorem UUID.toString_injective {u v : UUID} (h : u.toString = v.toString) : u = v := by
  have hb : u.bytes = v.bytes :=
    hexEncode_injective (by rw [← filter_toString, ← filter_toString, h])
  cases u
  cases v
  simp only at hb
  subst hb
  rfl

/-- Every character of a UUID's text is a hex digit or a dash. -/
theorem UUID.mem_alphabet (u : UUID) : ∀ c ∈ u.toString.data, c ∈ uuidAlphabet := by
  have hhex : ∀ l : List UInt8, ∀ c ∈ hexEncode l, c ∈ uuidAlphabet := fun l c hc => by
    obtain ⟨a, rfl⟩ := mem_hexEncode hc
    exact hexDigit_mem_alphabet a
  have hdash : '-' ∈ uuidAlphabet := by decide
  simp only [UUID.toString, List.forall_mem_append, List.forall_mem_cons]
  exact ⟨⟨⟨⟨hhex _, hdash, hhex _⟩, hdash, hhex _⟩, hdash, hhex _⟩, hdash, hhex _⟩

end UsersService
