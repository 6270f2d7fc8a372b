import Godwit.Lib.Base64
import Godwit.Lib.Utf8
import Godwit.Api.ModelRouter

set_option autoImplicit false

/-! # Stored provider credentials (`godwit-auth/src/credentials.rs`)

An API key is encrypted under the master key with a nonce of its own; ciphertext and nonce are stored as
texts in base 64. The cipher is a parameter: it decrypts what it has encrypted and refuses everything else,
as an authenticated cipher does that computes its tag again. So is the engine for base 64, which takes
canonical texts only. -/

namespace Godwit

/-- The key of the credentials: 32 bytes. -/
abbrev MasterKey := { bytes : List UInt8 // bytes.length = 32 }

/-- A nonce of AES-GCM: 12 bytes. -/
abbrev CredentialNonce := { bytes : List UInt8 // bytes.length = 12 }

/-- `Aes256Gcm`. -/
structure Aes256Gcm where
  encrypt : MasterKey → CredentialNonce → List UInt8 → List UInt8
  decrypt : MasterKey → CredentialNonce → List UInt8 → Option (List UInt8)
  decrypt_eq_some_iff : ∀ key nonce ciphertext plaintext,
    decrypt key nonce ciphertext = some plaintext ↔ encrypt key nonce plaintext = ciphertext

/-- An engine of the crate `base64`: it decodes what it has encoded and refuses every other text. -/
structure Base64Engine where
  encode : List UInt8 → String
  decode : String → Option (List UInt8)
  decode_eq_some_iff : ∀ text bytes, decode text = some bytes ↔ encode bytes = text

/-- What credentials are sealed with. -/
structure CredentialCrypto where
  aes : Aes256Gcm
  standard : Base64Engine

/-- `STANDARD`: the standard alphabet with padding. -/
def standardBase64 : Base64Engine where
  encode bytes := String.ofList (Base64.encode bytes)
  decode text := Base64.decode text.toList
  decode_eq_some_iff text bytes := by
    rw [Base64.decode_eq_some_iff]
    constructor
    · intro h
      rw [h, String.ofList_toList]
    · rintro rfl
      rw [String.toList_ofList]

/-- The texts of the errors of other crates: a text that is no base 64, bytes that are no UTF-8, and a
    document that is no `EncryptedSecret`. -/
structure CredentialTexts where
  decodeError : String → String
  utf8Error : List UInt8 → String
  valueError : Json → String

/-- `str::as_bytes` -/
def textBytes (text : String) : List UInt8 := text.toList.flatMap String.utf8EncodeChar

/-- `encrypt_api_key`: ciphertext and nonce as base64. -/
def encryptApiKey (crypto : CredentialCrypto) (masterKey : MasterKey) (nonce : CredentialNonce) (plaintext : String) :
    EncryptedSecret where
  ciphertext := crypto.standard.encode (crypto.aes.encrypt masterKey nonce (textBytes plaintext))
  nonce := crypto.standard.encode nonce.val

/-- What is left of `decrypt_api_key` once both texts are decoded. -/
def decryptBytes (aes : Aes256Gcm) (texts : CredentialTexts) (masterKey : MasterKey)
    (nonceBytes ciphertext : List UInt8) : Except PasteurError String :=
  if hlength : nonceBytes.length = 12 then
    match aes.decrypt masterKey ⟨nonceBytes, hlength⟩ ciphertext with
    | none => .error (.auth "failed to decrypt provider credential")
    | some plaintext =>
      match decodeUtf8 plaintext with
      | none => .error (.auth (texts.utf8Error plaintext))
      | some text => .ok (String.ofList text)
  else .error (.auth "invalid credential nonce length")

/-- `decrypt_api_key`: the nonce is read first, and its length is checked before it is used. -/
def decryptApiKey (crypto : CredentialCrypto) (texts : CredentialTexts) (masterKey : MasterKey)
    (secret : EncryptedSecret) : Except PasteurError String :=
  match crypto.standard.decode secret.nonce with
  | none => .error (.auth ("invalid credential nonce encoding: " ++ texts.decodeError secret.nonce))
  | some nonceBytes =>
    match crypto.standard.decode secret.ciphertext with
    | none => .error (.auth ("invalid credential ciphertext encoding: " ++ texts.decodeError secret.ciphertext))
    | some ciphertext => decryptBytes crypto.aes texts masterKey nonceBytes ciphertext

/-- `load_master_key_from_env`, given what the variable holds. -/
def loadMasterKeyFromEnv (standard : Base64Engine) (texts : CredentialTexts) (var : String) (held : Option String) :
    Except PasteurError MasterKey :=
  match held with
  | none => .error (.config (var ++ " is not set"))
  | some encoded =>
    match standard.decode encoded with
    | none => .error (.config (var ++ " is not valid base64: " ++ texts.decodeError encoded))
    | some bytes =>
      if hlength : bytes.length = 32 then .ok ⟨bytes, hlength⟩
      else .error (.config (var ++ " must decode to exactly 32 bytes, got " ++ toString bytes.length))

/-- `serde_json::from_value`: an object with both texts, or an array of them. -/
def EncryptedSecret.fromValue (texts : CredentialTexts) (value : Json) : Except String EncryptedSecret :=
  match value with
  | .obj fields =>
    match lookupField "ciphertext" fields, lookupField "nonce" fields with
    | some (.str ciphertext), some (.str nonce) => .ok ⟨ciphertext, nonce⟩
    | _, _ => .error (texts.valueError value)
  | .arr [.str ciphertext, .str nonce] => .ok ⟨ciphertext, nonce⟩
  | _ => .error (texts.valueError value)

/-- How the router reads credentials under a master key. -/
def credentialVault (crypto : CredentialCrypto) (texts : CredentialTexts) (masterKey : MasterKey) :
    CredentialVault where
  fromValue := EncryptedSecret.fromValue texts
  decryptApiKey := decryptApiKey crypto texts masterKey

/-! ## What is stored -/

section

variable {aes : Aes256Gcm} {texts : CredentialTexts} {masterKey : MasterKey} {secret : EncryptedSecret}

theorem decodeUtf8_eq_some_iff {bytes : List UInt8} {text : List Char} :
    decodeUtf8 bytes = some text ↔ text.flatMap String.utf8EncodeChar = bytes := by
  constructor
  · intro h
    unfold decodeUtf8 at h
    dsimp only at h
    split at h
    case isTrue hbytes =>
      cases h
      exact hbytes
    case isFalse => cases h
  · rintro rfl
    exact decodeUtf8_utf8 text

theorem decryptBytes_eq_ok_iff {nonceBytes ciphertext : List UInt8} {plaintext : String} :
    decryptBytes aes texts masterKey nonceBytes ciphertext = .ok plaintext
      ↔ ∃ nonce : CredentialNonce, nonce.val = nonceBytes
        ∧ aes.encrypt masterKey nonce (textBytes plaintext) = ciphertext := by
  unfold decryptBytes
  constructor
  · intro h
    split at h
    case isTrue hlength =>
      split at h
      · cases h
      case h_2 bytes hdecrypt =>
        split at h
        · cases h
        case h_2 text htext =>
          cases h
          refine ⟨⟨nonceBytes, hlength⟩, rfl, ?_⟩
          rw [textBytes, String.toList_ofList, decodeUtf8_eq_some_iff.1 htext]
          exact (aes.decrypt_eq_some_iff _ _ _ _).1 hdecrypt
    case isFalse => cases h
  · rintro ⟨nonce, rfl, hencrypt⟩
    rw [dif_pos nonce.property, (aes.decrypt_eq_some_iff _ _ _ _).2 hencrypt]
    dsimp only
    rw [textBytes, decodeUtf8_utf8]
    dsimp only
    rw [String.ofList_toList]

/-- A stored secret decrypts to a key exactly when it is an encryption of this key, byte for byte and text
    for text: nothing else is taken for a credential, and no credential is lost. -/
theorem decryptApiKey_eq_ok_iff (crypto : CredentialCrypto) (texts : CredentialTexts) (masterKey : MasterKey)
    (secret : EncryptedSecret) (plaintext : String) :
    decryptApiKey crypto texts masterKey secret = .ok plaintext
      ↔ ∃ nonce, encryptApiKey crypto masterKey nonce plaintext = secret := by
  constructor
  · intro h
    unfold decryptApiKey at h
    split at h
    · cases h
    case h_2 nonceBytes hnonce =>
      split at h
      · cases h
      case h_2 ciphertext hciphertext =>
        obtain ⟨nonce, rfl, hencrypt⟩ := decryptBytes_eq_ok_iff.1 h
        refine ⟨nonce, ?_⟩
        rw [encryptApiKey, hencrypt, (crypto.standard.decode_eq_some_iff _ _).1 hciphertext,
          (crypto.standard.decode_eq_some_iff _ _).1 hnonce]
  · rintro ⟨nonce, rfl⟩
    rw [decryptApiKey, encryptApiKey, (crypto.standard.decode_eq_some_iff _ _).2 rfl]
    dsimp only
    rw [(crypto.standard.decode_eq_some_iff _ _).2 rfl]
    exact decryptBytes_eq_ok_iff.2 ⟨nonce, rfl, rfl⟩

/-- The master key is taken from a text exactly when this encodes its 32 bytes. -/
theorem loadMasterKeyFromEnv_eq_ok_iff (standard : Base64Engine) (var : String) (held : Option String) :
    loadMasterKeyFromEnv standard texts var held = .ok masterKey ↔ held = some (standard.encode masterKey.val) := by
  constructor
  · intro h
    unfold loadMasterKeyFromEnv at h
    split at h
    · cases h
    · split at h
      · cases h
      case h_2 bytes hbytes =>
        split at h
        case isTrue hlength =>
          cases h
          rw [(standard.decode_eq_some_iff _ _).1 hbytes]
        case isFalse => cases h
  · rintro rfl
    rw [loadMasterKeyFromEnv, (standard.decode_eq_some_iff _ _).2 rfl]
    dsimp only
    rw [dif_pos masterKey.property]

end

end Godwit
