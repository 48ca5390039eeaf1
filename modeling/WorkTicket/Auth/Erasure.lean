import WorkTicket.Foundation.Json

/-! The erasure of a user's personal data: `delete_my_data` overwrites the plain columns of a
row whose accessors prefer the encrypted ones. -/

namespace WorkTicket.Auth.Erasure

/-- AES-GCM on texts in base64, the two derivations of its key from `PII_ENCRYPTION_KEY`, and
the parser of the legacy format. -/
structure Crypto (Key : Type) where
  aesEncrypt : Key → (nonce plaintext : String) → String
  aesDecrypt : Key → (nonce ciphertext : String) → Option String
  deriveKey : String → Key
  rawKey : String → Option Key
  loads : String → Option Json

structure User where
  id : String
  role : String
  email : String
  name : String
  encryptedEmail : Option String
  encryptedName : Option String
  isActive : Bool
  tokenVersion : ℕ
  deriving DecidableEq, Repr

section
variable {Key : Type} (crypto : Crypto Key) (piiKey : String)

/-! ## Encryption of fields -/

/-- `get_or_derive_key`; without a key it returns nothing, or raises, which its callers catch. -/
def getOrDeriveKey : Option Key := if piiKey = "" then none else some (crypto.deriveKey piiKey)

def encrypt (nonce plaintext : String) (key : Key) : String :=
  if plaintext = "" then plaintext
  else "v1:" ++ nonce ++ ":" ++ crypto.aesEncrypt key nonce plaintext

def encryptFieldForStorage (nonce plaintext : String) : String :=
  match getOrDeriveKey crypto piiKey with
  | none => plaintext
  | some key => encrypt crypto nonce plaintext key

/-- What is not in the format, or cannot be decrypted, is returned as it is. -/
def decrypt (ciphertext : String) (key : Key) : String :=
  if "v1:".toList.isPrefixOf ciphertext.toList then
    match (ciphertext.toList.drop 3).span (· ≠ ':') with
    | (nonce, _ :: body) =>
      (crypto.aesDecrypt key (String.ofList nonce) (String.ofList body)).getD ciphertext
    | (_, []) => ciphertext
  else ciphertext

/-- The JSON format of the old encryption, under the key without derivation. -/
def decryptLegacy (stored : String) : Option String := do
  guard (piiKey ≠ "")
  let key ← crypto.rawKey piiKey
  let data ← crypto.loads stored
  let _ ← data.item "ciphertext_b64"
  let nonce ← (← data.get "nonce_b64" (.str "")).text
  let ciphertext ← (← data.get "ciphertext_b64" (.str "")).text
  crypto.aesDecrypt key nonce ciphertext

def decryptFieldFromStorage : Option String → Option String
  | none => none
  | some stored =>
    if stored = "" then none
    else
      let byKey := (getOrDeriveKey crypto piiKey).elim stored (decrypt crypto stored)
      if byKey ≠ stored then some byKey
      else some ((decryptLegacy crypto piiKey stored).getD stored)

/-! ## The accessors of a row -/

/-- `decrypt_field_from_storage(encrypted) or plain`, if there is an encrypted value. -/
def safeField (encrypted : Option String) (plain : String) : String :=
  match decryptFieldFromStorage crypto piiKey encrypted with
  | none => plain
  | some value => if value = "" then plain else value

def User.safeEmail (u : User) : String := safeField crypto piiKey u.encryptedEmail u.email

def User.safeName (u : User) : String := safeField crypto piiKey u.encryptedName u.name

/-- An encrypted value that is the plain one is not stored. -/
def storedField (nonce value : String) (old : Option String) : Option String :=
  let encrypted := encryptFieldForStorage crypto piiKey nonce value
  if encrypted ≠ value then some encrypted else old

def User.setSafeEmail (nonce value : String) (u : User) : User :=
  { u with
    encryptedEmail := storedField crypto piiKey nonce value u.encryptedEmail
    email := value }

def User.setSafeName (nonce value : String) (u : User) : User :=
  { u with
    encryptedName := storedField crypto piiKey nonce value u.encryptedName
    name := value }

/-- A write of the profile: to a plain column, or by a setter in its environment. -/
inductive Write
  | email (value : String)
  | name (value : String)
  | safeEmail (piiKey nonce value : String)
  | safeName (piiKey nonce value : String)
  deriving DecidableEq, Repr

def Write.apply (u : User) : Write → User
  | .email value => { u with email := value }
  | .name value => { u with name := value }
  | .safeEmail piiKey nonce value => u.setSafeEmail crypto piiKey nonce value
  | .safeName piiKey nonce value => u.setSafeName crypto piiKey nonce value

def profile (u : User) (writes : List Write) : User := writes.foldl (Write.apply crypto) u

/-! ## Deletion -/

def deletedEmail (id : String) : String := "deleted-" ++ id ++ "@anonymized.workticket"

def deletedName : String := "Deleted User"

def anonymize (u : User) : User :=
  { u with
    email := deletedEmail u.id
    name := deletedName
    isActive := false
    tokenVersion := u.tokenVersion + 1 }

/-- `ownerCount` is the number of active owners of the company. -/
def deleteMyData (ownerCount : ℕ) (u : User) : Except (ℕ × String) User :=
  if u.role = "owner" ∧ ownerCount ≤ 1 then
    .error (400, "Cannot delete the last owner. Transfer ownership or delete the company first.")
  else .ok (anonymize u)

/-- What the accessors and the decrypted columns of a row yield. -/
def yields (u : User) : List String :=
  u.email :: u.name :: u.safeEmail crypto piiKey :: u.safeName crypto piiKey ::
    ((decryptFieldFromStorage crypto piiKey u.encryptedEmail).toList ++
      (decryptFieldFromStorage crypto piiKey u.encryptedName).toList)

/-- What the deletion itself writes, and the empty text. -/
def Anonymous (u : User) (value : String) : Prop :=
  value = "" ∨ value = deletedEmail u.id ∨ value = deletedName

/-- The row yields no value of before. -/
def Erased (before after : User) : Prop :=
  ∀ value ∈ yields crypto piiKey after, value ∈ yields crypto piiKey before → Anonymous before value

/-- Neither encrypted column holds a value. -/
def NothingEncrypted (u : User) : Prop :=
  ∀ value, decryptFieldFromStorage crypto piiKey u.encryptedEmail = some value ∨
    decryptFieldFromStorage crypto piiKey u.encryptedName = some value → Anonymous u value

end

section
variable {Key : Type} {crypto : Crypto Key} {piiKey : String}

theorem safeField_cases (crypto : Crypto Key) (piiKey : String) (encrypted : Option String)
    (plain : String) :
    safeField crypto piiKey encrypted plain = plain ∨
      decryptFieldFromStorage crypto piiKey encrypted =
        some (safeField crypto piiKey encrypted plain) := by
  unfold safeField
  split
  · exact .inl rfl
  · rename_i value hvalue
    split
    · exact .inl rfl
    · exact .inr hvalue

theorem mem_yields_iff {u : User} {value : String} : value ∈ yields crypto piiKey u ↔
    value = u.email ∨ value = u.name ∨
      decryptFieldFromStorage crypto piiKey u.encryptedEmail = some value ∨
      decryptFieldFromStorage crypto piiKey u.encryptedName = some value := by
  simp only [yields, List.mem_cons, List.mem_append, Option.mem_toList]
  constructor
  · rintro (h | h | h | h | h | h)
    · exact .inl h
    · exact .inr (.inl h)
    · rcases safeField_cases crypto piiKey u.encryptedEmail u.email with hs | hs
      · exact .inl (h.trans hs)
      · exact .inr (.inr (.inl (h ▸ hs)))
    · rcases safeField_cases crypto piiKey u.encryptedName u.name with hs | hs
      · exact .inr (.inl (h.trans hs))
      · exact .inr (.inr (.inr (h ▸ hs)))
    · exact .inr (.inr (.inl h))
    · exact .inr (.inr (.inr h))
  · rintro (h | h | h | h)
    · exact .inl h
    · exact .inr (.inl h)
    · exact .inr (.inr (.inr (.inr (.inl h))))
    · exact .inr (.inr (.inr (.inr (.inr h))))

theorem erased_anonymize_iff (u : User) :
    Erased crypto piiKey u (anonymize u) ↔ NothingEncrypted crypto piiKey u := by
  constructor
  · intro h value hvalue
    have hafter : value ∈ yields crypto piiKey (anonymize u) :=
      mem_yields_iff.mpr (.inr (.inr hvalue))
    exact h value hafter (mem_yields_iff.mpr (.inr (.inr hvalue)))
  · intro h value hvalue _
    rcases mem_yields_iff.mp hvalue with hemail | hname | hencrypted
    · exact .inr (.inl hemail)
    · exact .inr (.inr hname)
    · exact h value hencrypted

theorem deleteMyData_eq_ok {ownerCount : ℕ} {u after : User} :
    deleteMyData ownerCount u = .ok after ↔
      ¬(u.role = "owner" ∧ ownerCount ≤ 1) ∧ anonymize u = after := by
  unfold deleteMyData
  split
  · rename_i hlast
    exact ⟨nofun, fun h => absurd hlast h.1⟩
  · rename_i hnot
    exact ⟨fun h => ⟨hnot, Except.ok.inj h⟩, fun h => congrArg Except.ok h.2⟩

/-- After any writes of the profile: a deletion that succeeds leaves nothing of before in the
row, if and only if the user is the last owner, whom it refuses, or neither encrypted column
holds a value. -/
theorem deletion_erases_iff (crypto : Crypto Key) (piiKey : String) (ownerCount : ℕ) (u : User)
    (writes : List Write) :
    (∀ after, deleteMyData ownerCount (profile crypto u writes) = .ok after →
        Erased crypto piiKey (profile crypto u writes) after) ↔
      ((profile crypto u writes).role = "owner" ∧ ownerCount ≤ 1) ∨
        NothingEncrypted crypto piiKey (profile crypto u writes) := by
  rw [← erased_anonymize_iff, or_iff_not_imp_left]
  constructor
  · intro h hnot
    exact h _ (deleteMyData_eq_ok.mpr ⟨hnot, rfl⟩)
  · intro h after hafter
    obtain ⟨hnot, rfl⟩ := deleteMyData_eq_ok.mp hafter
    exact h hnot

/-! ## Which writes fill the encrypted columns -/

/-- A setter stores an encrypted value only in an environment with a key. -/
def Write.Plain : Write → Prop
  | .email _ | .name _ => True
  | .safeEmail piiKey _ value | .safeName piiKey _ value => piiKey = "" ∨ value = ""

theorem storedField_plain {nonce value : String} {old : Option String}
    (h : piiKey = "" ∨ value = "") : storedField crypto piiKey nonce value old = old := by
  have hsame : encryptFieldForStorage crypto piiKey nonce value = value := by
    unfold encryptFieldForStorage getOrDeriveKey
    rcases h with rfl | rfl
    · rfl
    · split
      · rfl
      · simp [encrypt]
  simp [storedField, hsame]

theorem profile_plain {u : User} {writes : List Write} (h : ∀ w ∈ writes, w.Plain) :
    (profile crypto u writes).encryptedEmail = u.encryptedEmail ∧
      (profile crypto u writes).encryptedName = u.encryptedName := by
  induction writes generalizing u with
  | nil => exact ⟨rfl, rfl⟩
  | cons w writes ih =>
    have hw := h w List.mem_cons_self
    have hrest := ih (u := w.apply crypto u) fun v hv => h v (List.mem_cons_of_mem _ hv)
    have hsame : (w.apply crypto u).encryptedEmail = u.encryptedEmail ∧
        (w.apply crypto u).encryptedName = u.encryptedName := by
      cases w with
      | email value => exact ⟨rfl, rfl⟩
      | name value => exact ⟨rfl, rfl⟩
      | safeEmail piiKey nonce value => exact ⟨storedField_plain hw, rfl⟩
      | safeName piiKey nonce value => exact ⟨rfl, storedField_plain hw⟩
    exact ⟨hrest.1.trans hsame.1, hrest.2.trans hsame.2⟩

/-- A row that was never written by a setter with a key is erased completely. -/
theorem erased_of_plain {u : User} {writes : List Write} (hemail : u.encryptedEmail = none)
    (hname : u.encryptedName = none) (h : ∀ w ∈ writes, w.Plain) :
    Erased crypto piiKey (profile crypto u writes) (anonymize (profile crypto u writes)) := by
  have hplain : (profile crypto u writes).encryptedEmail = u.encryptedEmail ∧
      (profile crypto u writes).encryptedName = u.encryptedName := profile_plain h
  refine (erased_anonymize_iff _).mpr fun value hvalue => ?_
  rw [hplain.1, hplain.2, hemail, hname] at hvalue
  rcases hvalue with hvalue | hvalue <;> cases hvalue

theorem decrypt_encrypt {key : Key} {nonce plaintext : String} (hplain : plaintext ≠ "")
    (hnonce : ':' ∉ nonce.toList)
    (hopen : crypto.aesDecrypt key nonce (crypto.aesEncrypt key nonce plaintext) = some plaintext) :
    decrypt crypto (encrypt crypto nonce plaintext key) key = plaintext := by
  have htext : (encrypt crypto nonce plaintext key).toList = 'v' :: '1' :: ':' ::
      (nonce.toList ++ ':' :: (crypto.aesEncrypt key nonce plaintext).toList) := by
    simp [encrypt, hplain, String.toList_append]
  have hfree : ∀ c ∈ nonce.toList, (decide (c ≠ ':')) = true := by
    intro c hc
    have hne : c ≠ ':' := fun h => hnonce (h ▸ hc)
    simpa using hne
  have hspan : (nonce.toList ++ ':' ::
      (crypto.aesEncrypt key nonce plaintext).toList).span (· ≠ ':') =
      (nonce.toList, ':' :: (crypto.aesEncrypt key nonce plaintext).toList) := by
    rw [List.span_eq_takeWhile_dropWhile, List.takeWhile_append_of_pos hfree,
      List.dropWhile_append_of_pos hfree]
    simp
  rw [decrypt, htext, if_pos (by rfl)]
  simp only [List.drop_succ_cons, List.drop_zero, hspan, String.ofList_toList, hopen,
    Option.getD_some]

/-- What a setter has encrypted is what the accessor yields after the deletion. -/
theorem safeEmail_survives {u : User} {nonce value : String} (hkey : piiKey ≠ "")
    (hvalue : value ≠ "") (hnonce : ':' ∉ nonce.toList)
    (hopen : crypto.aesDecrypt (crypto.deriveKey piiKey) nonce
      (crypto.aesEncrypt (crypto.deriveKey piiKey) nonce value) = some value)
    (hdiffer : encryptFieldForStorage crypto piiKey nonce value ≠ value) :
    (anonymize (u.setSafeEmail crypto piiKey nonce value)).safeEmail crypto piiKey = value := by
  have hstored : encryptFieldForStorage crypto piiKey nonce value =
      encrypt crypto nonce value (crypto.deriveKey piiKey) := by
    simp [encryptFieldForStorage, getOrDeriveKey, hkey]
  have hfull : encrypt crypto nonce value (crypto.deriveKey piiKey) ≠ "" := by
    simp [encrypt, hvalue]
  rw [hstored] at hdiffer
  have hread : decryptFieldFromStorage crypto piiKey
      (some (encrypt crypto nonce value (crypto.deriveKey piiKey))) = some value := by
    simp [decryptFieldFromStorage, hfull, getOrDeriveKey, hkey, decrypt_encrypt hvalue hnonce hopen,
      hdiffer.symm]
  simp [anonymize, User.setSafeEmail, User.safeEmail, safeField, storedField, hstored, hdiffer,
    hread, hvalue]

end

/-- A cipher that moves the plaintext behind a mark. -/
def marked : Crypto Unit where
  aesEncrypt _ _ plaintext := "#" ++ plaintext
  aesDecrypt _ _ ciphertext := some (String.ofList (ciphertext.toList.drop 1))
  deriveKey _ := ()
  rawKey _ := none
  loads _ := none

def ann : User := ⟨"user_1", "technician", "ann@example.com", "Ann", none, none, true, 0⟩

theorem not_erased_safeEmail :
    ¬∀ after, deleteMyData 1 (profile marked ann [.safeEmail "secret" "n" "ann@example.com"]) =
        .ok after →
      Erased marked "secret" (profile marked ann [.safeEmail "secret" "n" "ann@example.com"])
        after := by
  intro h
  have hkept := h _ rfl "ann@example.com" (by decide) (by decide)
  rcases hkept with hkept | hkept | hkept <;> exact absurd hkept (by decide)

end WorkTicket.Auth.Erasure
