import WorkTicket.Auth.Erasure

/-! The accessors of personal data: each value lives in a plain and an encrypted column, and a
setter that does not encrypt leaves the encrypted one as it is. -/

namespace WorkTicket.Auth.Erasure

/-- AES-GCM inverts its encryption, and the text of a ciphertext is not shorter than the
plaintext: base64 of its bytes and a tag. -/
structure Crypto.Lawful {Key : Type} (crypto : Crypto Key) : Prop where
  opens : ∀ key nonce plaintext,
    crypto.aesDecrypt key nonce (crypto.aesEncrypt key nonce plaintext) = some plaintext
  long : ∀ key nonce ciphertext plaintext,
    crypto.aesDecrypt key nonce ciphertext = some plaintext → plaintext.length ≤ ciphertext.length

structure Customer where
  id : String
  name : String
  email : Option String
  phone : Option String
  encryptedEmail : Option String
  encryptedPhone : Option String
  encryptedName : Option String
  deriving DecidableEq, Repr

section
variable {Key : Type} (crypto : Crypto Key) (piiKey : String)

/-- `decrypt_field_from_storage(encrypted) or plain` for a plain column that may be null. -/
def safeNullable (encrypted plain : Option String) : Option String :=
  match decryptFieldFromStorage crypto piiKey encrypted with
  | none => plain
  | some value => if value = "" then plain else some value

def Customer.safeEmail (c : Customer) : Option String :=
  safeNullable crypto piiKey c.encryptedEmail c.email

def Customer.safePhone (c : Customer) : Option String :=
  safeNullable crypto piiKey c.encryptedPhone c.phone

def Customer.safeName (c : Customer) : String := safeField crypto piiKey c.encryptedName c.name

def Customer.setSafeEmail (nonce value : String) (c : Customer) : Customer :=
  { c with
    encryptedEmail := storedField crypto piiKey nonce value c.encryptedEmail
    email := some value }

def Customer.setSafePhone (nonce value : String) (c : Customer) : Customer :=
  { c with
    encryptedPhone := storedField crypto piiKey nonce value c.encryptedPhone
    phone := some value }

def Customer.setSafeName (nonce value : String) (c : Customer) : Customer :=
  { c with
    encryptedName := storedField crypto piiKey nonce value c.encryptedName
    name := value }

/-- The properties `safe_…` of the two rows. -/
inductive Accessor
  | userEmail | userName | customerEmail | customerPhone | customerName
  deriving DecidableEq, Repr

/-- What the property yields once it has been set, in the environments of the two calls. -/
def Accessor.readBack (writeKey readKey nonce value : String) (u : User) (c : Customer) :
    Accessor → Option String
  | .userEmail => some ((u.setSafeEmail crypto writeKey nonce value).safeEmail crypto readKey)
  | .userName => some ((u.setSafeName crypto writeKey nonce value).safeName crypto readKey)
  | .customerEmail => (c.setSafeEmail crypto writeKey nonce value).safeEmail crypto readKey
  | .customerPhone => (c.setSafePhone crypto writeKey nonce value).safePhone crypto readKey
  | .customerName => some ((c.setSafeName crypto writeKey nonce value).safeName crypto readKey)

/-- The encrypted column of the property. -/
def Accessor.column (u : User) (c : Customer) : Accessor → Option String
  | .userEmail => u.encryptedEmail
  | .userName => u.encryptedName
  | .customerEmail => c.encryptedEmail
  | .customerPhone => c.encryptedPhone
  | .customerName => c.encryptedName

/-- What the encrypted column reads as does not hide the value: nothing, the empty text, or the
value itself. -/
def Reveals (column : Option String) (value : String) : Prop :=
  ∀ stale, decryptFieldFromStorage crypto piiKey column = some stale → stale = "" ∨ stale = value

end

section
variable {Key : Type} {crypto : Crypto Key} {readKey writeKey nonce value : String}
variable {old : Option String}

theorem Crypto.Lawful.encrypt_ne (hcrypto : crypto.Lawful) (key : Key) (nonce : String)
    (hvalue : value ≠ "") :
    encrypt crypto nonce value key ≠ value := by
  intro h
  have hlong := hcrypto.long key nonce _ _ (hcrypto.opens key nonce value)
  have hlength := congrArg String.length h
  simp only [encrypt, hvalue, if_false, String.length_append] at hlength
  have hmark : "v1:".length = 3 := rfl
  omega

theorem encryptFieldForStorage_keyed (hkey : writeKey ≠ "") :
    encryptFieldForStorage crypto writeKey nonce value =
      encrypt crypto nonce value (crypto.deriveKey writeKey) := by
  simp [encryptFieldForStorage, getOrDeriveKey, hkey]

/-- A value that was encrypted under the key reads as itself. -/
theorem decryptFieldFromStorage_encrypt (hcrypto : crypto.Lawful) (hkey : readKey ≠ "")
    (hvalue : value ≠ "") (hnonce : ':' ∉ nonce.toList) :
    decryptFieldFromStorage crypto readKey
      (some (encrypt crypto nonce value (crypto.deriveKey readKey))) = some value := by
  have hne := hcrypto.encrypt_ne (crypto.deriveKey readKey) nonce hvalue
  have hfull : encrypt crypto nonce value (crypto.deriveKey readKey) ≠ "" := by
    simp [encrypt, hvalue]
  have hread := decrypt_encrypt hvalue hnonce (hcrypto.opens (crypto.deriveKey readKey) _ _)
  simp [decryptFieldFromStorage, hfull, getOrDeriveKey, hkey, hread, hne.symm]

theorem reveals_storedField_iff (hcrypto : crypto.Lawful) (hnonce : ':' ∉ nonce.toList)
    (hread : writeKey = "" ∨ readKey = writeKey) :
    Reveals crypto readKey (storedField crypto writeKey nonce value old) value ↔
      (writeKey ≠ "" ∧ value ≠ "") ∨ Reveals crypto readKey old value := by
  by_cases hkeyed : writeKey ≠ "" ∧ value ≠ ""
  · obtain ⟨hkey, hvalue⟩ := hkeyed
    obtain rfl := hread.resolve_left hkey
    have hne := hcrypto.encrypt_ne (crypto.deriveKey readKey) nonce hvalue
    have hstored : storedField crypto readKey nonce value old =
        some (encrypt crypto nonce value (crypto.deriveKey readKey)) := by
      rw [storedField, encryptFieldForStorage_keyed hkey, if_pos hne]
    have hreveals : Reveals crypto readKey (storedField crypto readKey nonce value old) value := by
      intro stale hstale
      rw [hstored, decryptFieldFromStorage_encrypt hcrypto hkey hvalue hnonce] at hstale
      exact .inr (Option.some.inj hstale).symm
    simp [hreveals, hkey, hvalue]
  · have hplain : writeKey = "" ∨ value = "" := by
      by_contra h
      exact hkeyed (not_or.mp h)
    rw [storedField_plain hplain, or_iff_right hkeyed]

theorem safeField_eq_iff {column : Option String} :
    safeField crypto readKey column value = value ↔ Reveals crypto readKey column value := by
  unfold safeField Reveals
  cases hcolumn : decryptFieldFromStorage crypto readKey column with
  | none => simp
  | some stale =>
    by_cases hempty : stale = ""
    · simp [hempty]
    · simp [hempty]

theorem safeNullable_eq_iff {column : Option String} :
    safeNullable crypto readKey column (some value) = some value ↔
      Reveals crypto readKey column value := by
  have hfield : safeNullable crypto readKey column (some value) =
      some (safeField crypto readKey column value) := by
    unfold safeNullable safeField
    cases decryptFieldFromStorage crypto readKey column with
    | none => rfl
    | some stale =>
      by_cases hempty : stale = ""
      · simp [hempty]
      · simp [hempty]
  rw [hfield, Option.some_inj, safeField_eq_iff]

end

/-- A property yields what was set just before, read under the key of the write if there was one,
if and only if the value was encrypted, or what is left in the encrypted column does not hide it. -/
theorem readBack_iff {Key : Type} {crypto : Crypto Key} {readKey writeKey nonce : String}
    (hcrypto : crypto.Lawful) (hnonce : ':' ∉ nonce.toList)
    (hread : writeKey = "" ∨ readKey = writeKey) (value : String) (u : User) (c : Customer)
    (accessor : Accessor) :
    accessor.readBack crypto writeKey readKey nonce value u c = some value ↔
      (writeKey ≠ "" ∧ value ≠ "") ∨ Reveals crypto readKey (accessor.column u c) value := by
  rw [← reveals_storedField_iff hcrypto hnonce hread]
  cases accessor with
  | userEmail => exact Option.some_inj.trans safeField_eq_iff
  | userName => exact Option.some_inj.trans safeField_eq_iff
  | customerEmail => exact safeNullable_eq_iff
  | customerPhone => exact safeNullable_eq_iff
  | customerName => exact Option.some_inj.trans safeField_eq_iff

/-! ## Emptying a name -/

theorem marked_lawful : marked.Lawful := by
  constructor
  · intro key nonce plaintext
    simp [marked, String.toList_append]
  · intro key nonce ciphertext plaintext h
    obtain rfl := Option.some.inj h
    simp [← String.length_toList]

def bob : Customer := ⟨"customer_1", "Bob", none, some "555", none, some "v1:n:#555", none⟩

theorem readBack_bob :
    Accessor.customerPhone.readBack marked "secret" "secret" "n" "556" ann bob = some "556" := by
  have hnonce : ':' ∉ "n".toList := by decide
  have hread : "secret" = "" ∨ "secret" = "secret" := .inr rfl
  have h := readBack_iff marked_lawful hnonce hread "556" ann bob .customerPhone
  exact h.mpr (.inl ⟨by decide, by decide⟩)

/-- A name that was set with the key cannot be emptied. -/
theorem not_readBack_emptyName :
    ¬∀ (value : String) (u : User),
      Accessor.userName.readBack marked "secret" "secret" "n" value u bob = some value := by
  intro h
  have hempty := h "" (ann.setSafeName marked "secret" "n" "Ann")
  exact absurd hempty (by decide)

end WorkTicket.Auth.Erasure
