import WorkTicket.Auth.PiiAccessors

/-! The column type `EncryptedString`: a value that begins like a ciphertext is taken for one, and
stored as it is. -/

namespace WorkTicket.Db.EncryptedString

open WorkTicket.Auth.Erasure

section
variable {Key : Type} (crypto : Crypto Key) (piiKey : String)

/-! ## The code -/

/-- `value.startswith(_ENCRYPTED_PREFIX)`. -/
def prefixed (value : String) : Bool := "v1:".toList.isPrefixOf value.toList

/-- `_encrypt_value`; without a key it raises, unless in debug mode. -/
def encryptValue (debug : Bool) (nonce plaintext : String) : Except String String :=
  if plaintext = "" then .ok plaintext
  else
    match getOrDeriveKey crypto piiKey with
    | some key => .ok (encrypt crypto nonce plaintext key)
    | none =>
      if debug then .ok plaintext
      else .error "PII_ENCRYPTION_KEY not set — PII encryption is required for production."

/-- `_decrypt_value`. -/
def decryptValue (encrypted : String) : String :=
  if encrypted = "" then encrypted
  else if prefixed encrypted = false then encrypted
  else (getOrDeriveKey crypto piiKey).elim encrypted (decrypt crypto encrypted)

/-- `process_bind_param`, for the values that are texts. -/
def processBindParam (debug : Bool) (nonce : String) :
    Option String → Except String (Option String)
  | none => .ok none
  | some value =>
    if prefixed value then .ok (some value)
    else if value = "" then .ok (some value)
    else (encryptValue crypto piiKey debug nonce value).map some

/-- `process_result_value`. -/
def processResultValue : Option String → Option String
  | none => none
  | some value =>
    if prefixed value = false then some value else some (decryptValue crypto piiKey value)

/-- A text in the format of ciphertexts whose body decrypts to the plaintext. -/
def CiphertextOf (key : Key) (plaintext stored : String) : Prop :=
  ∃ nonce body, stored = "v1:" ++ nonce ++ ":" ++ body ∧
    crypto.aesDecrypt key nonce body = some plaintext

/-- A text is bound as a ciphertext of it, and read back. -/
def StoredEncrypted (debug : Bool) (nonce s : String) : Prop :=
  ∃ stored, processBindParam crypto piiKey debug nonce (some s) = .ok (some stored) ∧
    CiphertextOf crypto (crypto.deriveKey piiKey) s stored ∧
    processResultValue crypto piiKey (some stored) = some s

end

/-! ## What is stored -/

section
variable {Key : Type} {crypto : Crypto Key} {piiKey nonce s stored : String}

/-- A ciphertext is longer than what it encrypts. -/
theorem CiphertextOf.length_lt {key : Key} (h : CiphertextOf crypto key s stored)
    (hcrypto : crypto.Lawful) : s.length < stored.length := by
  obtain ⟨nonce, body, rfl, hopen⟩ := h
  have hlong := hcrypto.long key nonce body s hopen
  have hmark : "v1:".length = 3 := rfl
  simp only [String.length_append]
  omega

theorem encrypt_prefixed (crypto : Crypto Key) (key : Key) (nonce : String) (hs : s ≠ "") :
    prefixed (encrypt crypto nonce s key) = true := by
  have htext : (encrypt crypto nonce s key).toList = 'v' :: '1' :: ':' ::
      (nonce.toList ++ ':' :: (crypto.aesEncrypt key nonce s).toList) := by
    simp [encrypt, hs, String.toList_append]
  rw [prefixed, htext]
  rfl

theorem processResultValue_encrypt (hcrypto : crypto.Lawful) (hkey : piiKey ≠ "")
    (hnonce : ':' ∉ nonce.toList) (hs : s ≠ "") :
    processResultValue crypto piiKey
      (some (encrypt crypto nonce s (crypto.deriveKey piiKey))) = some s := by
  have hprefixed := encrypt_prefixed crypto (crypto.deriveKey piiKey) nonce hs
  have hfull : encrypt crypto nonce s (crypto.deriveKey piiKey) ≠ "" := by simp [encrypt, hs]
  have hread := decrypt_encrypt hs hnonce (hcrypto.opens (crypto.deriveKey piiKey) _ _)
  simp [processResultValue, decryptValue, hprefixed, hfull, getOrDeriveKey, hkey, hread]

/-- With a key, exactly the texts that do not begin like a ciphertext are encrypted. -/
theorem storedEncrypted_iff (hcrypto : crypto.Lawful) (hkey : piiKey ≠ "")
    (hnonce : ':' ∉ nonce.toList) (hs : s ≠ "") (debug : Bool) :
    StoredEncrypted crypto piiKey debug nonce s ↔ prefixed s = false := by
  constructor
  · rintro ⟨stored, hbound, hcipher, _⟩
    by_contra hprefixed
    rw [Bool.not_eq_false] at hprefixed
    rw [processBindParam, if_pos hprefixed] at hbound
    obtain rfl := Option.some.inj (Except.ok.inj hbound)
    exact absurd (hcipher.length_lt hcrypto) (Nat.lt_irrefl _)
  · intro hprefixed
    refine ⟨encrypt crypto nonce s (crypto.deriveKey piiKey), ?_, ?_, ?_⟩
    · simp [processBindParam, hprefixed, hs, encryptValue, getOrDeriveKey, hkey, Except.map]
    · exact ⟨nonce, _, by simp [encrypt, hs], hcrypto.opens _ _ _⟩
    · exact processResultValue_encrypt hcrypto hkey hnonce hs

end

/-! ## A text that imitates the mark -/

theorem storedEncrypted_ann : StoredEncrypted marked "secret" false "n" "ann@example.com" := by
  have hnonce : ':' ∉ "n".toList := by decide
  have h := storedEncrypted_iff (s := "ann@example.com") marked_lawful
    (by decide : "secret" ≠ "") hnonce (by decide) false
  exact h.mpr (by decide)

theorem not_storedEncrypted_imitation :
    ¬StoredEncrypted marked "secret" false "n" "v1:ann@example.com" := by
  rintro ⟨stored, hbound, ⟨nonce, body, hformat, hopen⟩, _⟩
  have hsame : stored = "v1:ann@example.com" := by
    have hvalue : processBindParam marked "secret" false "n" (some "v1:ann@example.com") =
        .ok (some "v1:ann@example.com") := by decide
    exact Option.some.inj (Except.ok.inj (hbound.symm.trans hvalue))
  have hlong := marked_lawful.long () nonce body _ hopen
  have hlength := congrArg String.length (hsame.symm.trans hformat)
  simp only [String.length_append] at hlength
  have hmark : "v1:".length = 3 := rfl
  omega

end WorkTicket.Db.EncryptedString
