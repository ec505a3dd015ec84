import UsersService.Uuid

/-! The Redis keys of `internal/repository/cache`. A user is cached under three keys, one per
lookup field, each namespaced by a prefix. The prefix `user:` of the id keys is a prefix of the
other two, so the three kinds are kept apart only because a UUID's text is made of hex digits and
dashes, and `m` (second letter of `email:`) and `n` (first letter of `nick:`) are neither. -/

namespace UsersService

/-- `userKeyPrefix`. -/
def userKeyPrefix : String := "user:"

/-- `emailKeyPrefix`. -/
def emailKeyPrefix : String := "user:email:"

/-- `nickKeyPrefix`. -/
def nickKeyPrefix : String := "user:nick:"

/-- `userKey(id)`: `fmt.Sprintf("%s%s", userKeyPrefix, id.String())`. -/
def userKey (id : UUID) : String := userKeyPrefix ++ id.toString

/-- `emailKey(email)`. -/
def emailKey (email : String) : String := emailKeyPrefix ++ email

/-- `nickKey(nickname)`. -/
def nickKey (nickname : String) : String := nickKeyPrefix ++ nickname

theorem userKey_injective {i i' : UUID} (h : userKey i = userKey i') : i = i' := by
  simp only [userKey, String.ext_iff, String.data_append, List.append_cancel_left_eq] at h
  exact UUID.toString_injective (String.ext h)

theorem emailKey_injective {e e' : String} (h : emailKey e = emailKey e') : e = e' := by
  simpa [emailKey, String.ext_iff] using h

theorem nickKey_injective {n n' : String} (h : nickKey n = nickKey n') : n = n' := by
  simpa [nickKey, String.ext_iff] using h

/-- An id key never equals an email key: its tail would start with `em`, and `m` is no hex
digit. -/
theorem userKey_ne_emailKey (i : UUID) (e : String) : userKey i ≠ emailKey e := by
  intro h
  have hm : 'm' ∈ i.toString.data := by
    simp only [userKey, emailKey, userKeyPrefix, emailKeyPrefix, String.ext_iff,
      String.data_append] at h
    have : i.toString.data = "email:".data ++ e.data := List.append_cancel_left (h.trans rfl)
    simp [this]
  exact absurd (i.mem_alphabet _ hm) (by decide)

theorem userKey_ne_nickKey (i : UUID) (n : String) : userKey i ≠ nickKey n := by
  intro h
  have hn : 'n' ∈ i.toString.data := by
    simp only [userKey, nickKey, userKeyPrefix, nickKeyPrefix, String.ext_iff,
      String.data_append] at h
    have : i.toString.data = "nick:".data ++ n.data := List.append_cancel_left (h.trans rfl)
    simp [this]
  exact absurd (i.mem_alphabet _ hn) (by decide)

theorem emailKey_ne_nickKey (e n : String) : emailKey e ≠ nickKey n := by
  simp [emailKey, nickKey, emailKeyPrefix, nickKeyPrefix, String.ext_iff]

/-- The three key derivations are injective and their images are pairwise disjoint. -/
theorem cacheKeys_jointly_injective :
    (∀ i i' : UUID, userKey i = userKey i' → i = i') ∧
    (∀ e e' : String, emailKey e = emailKey e' → e = e') ∧
    (∀ n n' : String, nickKey n = nickKey n' → n = n') ∧
    (∀ (i : UUID) (e : String), userKey i ≠ emailKey e) ∧
    (∀ (i : UUID) (n : String), userKey i ≠ nickKey n) ∧
    (∀ e n : String, emailKey e ≠ nickKey n) :=
  ⟨fun _ _ => userKey_injective, fun _ _ => emailKey_injective, fun _ _ => nickKey_injective,
    userKey_ne_emailKey, userKey_ne_nickKey, emailKey_ne_nickKey⟩

end UsersService
