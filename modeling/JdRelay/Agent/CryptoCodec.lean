import JdRelay.Agent.Base64Text
import JdRelay.Agent.Nlohmann
import JdRelay.Agent.ReplayGuard
import JdRelay.Crypto.Codec

namespace Agent
open Text Json Crypto
open Base64Text (toInt)

structure CryptoEnvelope where
  msgId : Str
  timestamp : Int
  nonce : Str
  type : Str
  iv : Str
  ciphertext : Str
  tag : Str
  signature : Str
  deriving DecidableEq

def parseMessageType (s : Str) : Except Exn MessageType :=
  match MessageType.members.find? (·.value = s) with
  | some t => .ok t
  | none => .error (.invalidArgument (str "Unknown message type: " ++ s))

theorem parseMessageType_value (t : MessageType) : parseMessageType t.value = .ok t := by cases t <;> rfl

theorem parseMessageType_ok {s : Str} {t : MessageType} : parseMessageType s = .ok t ↔ s = t.value := by
  constructor
  · intro h
    unfold parseMessageType at h
    split at h
    · rename_i t' ht
      cases h
      have hfound := List.find?_some ht
      exact (of_decide_eq_true hfound).symm
    · cases h
  · rintro rfl
    exact parseMessageType_value t

def buildSigningPayload (env : CryptoEnvelope) : Str :=
  env.msgId ++ str "|" ++ Number.intStr env.timestamp ++ str "|" ++ env.nonce ++ str "|" ++ env.type ++ str "|" ++
    env.iv ++ str "|" ++ env.ciphertext ++ str "|" ++ env.tag

-- nlohmann's parser lets no lone surrogate through, so every std::string here is UTF-8.
def bytes (s : Str) : Bytes := (encodeUtf8 s).getD []

-- BIO_f_base64 over a memory BIO: the text that BIO_write and BIO_flush leave of some bytes, and the bytes that BIO_read
-- gives of a text.
structure OpenSsl where
  bioWrite : Bytes → Str
  bioRead : Bytes → Bytes

namespace OpenSsl

variable (ssl : OpenSsl)

-- BIO_write takes no negative length.
def base64Encode (data : Bytes) : Str := ssl.bioWrite (data.take (toInt data.length).toNat)

-- The BIO holds as many bytes as static_cast<int>(encoded.size()) counts, and BIO_read is asked for no more of them;
-- it gives nothing where the number is not positive.
def base64Decode (encoded : Str) : Bytes :=
  let size := (toInt (bytes encoded).length).toNat
  (ssl.bioRead ((bytes encoded).take size)).take size

theorem length_base64Decode (encoded : Str) : (ssl.base64Decode encoded).length < 2147483648 := by
  have htake := List.length_take_le (toInt (bytes encoded).length).toNat
    (ssl.bioRead ((bytes encoded).take (toInt (bytes encoded).length).toNat))
  exact htake.trans_lt (Base64Text.toInt_lt _)

end OpenSsl

structure EncryptResult where
  ciphertext : Bytes := []
  iv : Bytes := []
  tag : Bytes := []
  ok : Bool := false
  error : Str := []

-- Also what AesGcmCipher::decrypt returns: the header has one type for both.
structure DecryptResult where
  plaintext : Bytes := []
  ok : Bool := false
  error : Str := []
  deriving DecidableEq

-- EVP with the 32-byte key of the session; inl is the length that the update call is given for its input. An error is the
-- text set at the call that failed.
structure AesGcmCipher where
  evpEncrypt : (iv plaintext : Bytes) → (inl : Int) → Except Str (Bytes × Bytes)
  evpDecrypt : (ciphertext : Bytes) → (inl : Int) → (iv tag : Bytes) → Except Str Bytes

namespace AesGcmCipher

def encrypt (c : AesGcmCipher) (random plaintext : Bytes) (iv : Bytes) : EncryptResult :=
  let useIv := if iv = [] then random else iv
  if useIv.length ≠ 12 then
    { error := str "IV must be 12 bytes for AES-GCM, got " ++ Number.natStr useIv.length }
  else match c.evpEncrypt useIv plaintext (toInt plaintext.length) with
    | .error e => { error := e }
    | .ok (ciphertext, tag) => { ciphertext, iv := useIv, tag, ok := true }

def decrypt (c : AesGcmCipher) (ciphertext iv tag : Bytes) : DecryptResult :=
  if iv.length ≠ 12 then { error := str "IV must be 12 bytes, got " ++ Number.natStr iv.length }
  else if tag.length ≠ 16 then { error := str "Tag must be 16 bytes, got " ++ Number.natStr tag.length }
  else match c.evpDecrypt ciphertext (toInt ciphertext.length) iv tag with
    | .error e => { error := e }
    | .ok plaintext => { plaintext, ok := true }

end AesGcmCipher

structure CryptoCodec where
  cipher : AesGcmCipher
  signer : EcdsaSigner
  verifier : EcdsaSigner
  guard : ReplayGuard Str

namespace CryptoCodec

section FromJson

variable (nl : Nlohmann)

def ofJson (j : Value) : Except Exn CryptoEnvelope := do
  let msgId ← Nlohmann.value Nlohmann.getString (str "msg_id") [] j
  let timestamp ← Nlohmann.value nl.getLongLong (str "timestamp") 0 j
  let nonce ← Nlohmann.value Nlohmann.getString (str "nonce") [] j
  let type ← Nlohmann.value Nlohmann.getString (str "type") [] j
  let iv ← Nlohmann.value Nlohmann.getString (str "iv") [] j
  let ciphertext ← Nlohmann.value Nlohmann.getString (str "ciphertext") [] j
  let tag ← Nlohmann.value Nlohmann.getString (str "tag") [] j
  let signature ← Nlohmann.value Nlohmann.getString (str "signature") [] j
  .ok { msgId, timestamp, nonce, type, iv, ciphertext, tag, signature }

def fromJson (jsonStr : Bytes) : Except Exn CryptoEnvelope := do
  let j ← nl.parsed jsonStr
  ofJson nl j

abbrev textField (fields : List (Str × Value)) (key : String) : Bool :=
  Nlohmann.hasType Nlohmann.getString fields (str key)

abbrev text (fields : List (Str × Value)) (key : String) : Str :=
  Nlohmann.valueOr Nlohmann.getString fields (str key) []

def WellTyped (fields : List (Str × Value)) : Prop :=
  textField fields "msg_id" ∧ Nlohmann.hasType nl.getLongLong fields (str "timestamp") ∧
    textField fields "nonce" ∧ textField fields "type" ∧ textField fields "iv" ∧ textField fields "ciphertext" ∧
    textField fields "tag" ∧ textField fields "signature"

instance (fields : List (Str × Value)) : Decidable (WellTyped nl fields) :=
  inferInstanceAs (Decidable (_ ∧ _ ∧ _ ∧ _ ∧ _ ∧ _ ∧ _ ∧ _))

def ofFields (fields : List (Str × Value)) : CryptoEnvelope where
  msgId := text fields "msg_id"
  timestamp := Nlohmann.valueOr nl.getLongLong fields (str "timestamp") 0
  nonce := text fields "nonce"
  type := text fields "type"
  iv := text fields "iv"
  ciphertext := text fields "ciphertext"
  tag := text fields "tag"
  signature := text fields "signature"

theorem value_bind {A B : Type} (get : Value → Option A) (fields : List (Str × Value)) (key : Str) (default : A)
    (f : A → Except Exn B) :
    (Nlohmann.value get key default (.obj fields) >>= f) =
      if Nlohmann.hasType get fields key then f (Nlohmann.valueOr get fields key default) else .error .typeError := by
  rw [Nlohmann.value_obj]
  split <;> rfl

theorem ofJson_obj (fields : List (Str × Value)) :
    ofJson nl (.obj fields) = if WellTyped nl fields then .ok (ofFields nl fields) else .error .typeError := by
  simp only [ofJson, value_bind, ← ite_and]
  rfl

variable {nl}

theorem fromJson_ok_iff {jsonStr : Bytes} {env : CryptoEnvelope} :
    fromJson nl jsonStr = .ok env ↔
      ∃ fields, nl.parse jsonStr = some (.obj fields) ∧ WellTyped nl fields ∧ ofFields nl fields = env := by
  unfold fromJson Nlohmann.parsed
  cases nl.parse jsonStr with
  | none => exact ⟨nofun, nofun⟩
  | some j =>
      cases j with
      | obj fields =>
          change ofJson nl (.obj fields) = .ok env ↔ _
          rw [ofJson_obj]
          by_cases htyped : WellTyped nl fields
          · simp [htyped]
          · simp [htyped]
      | _ => exact ⟨nofun, nofun⟩

end FromJson

section Encrypt

variable (ssl : OpenSsl) (c : CryptoCodec)

-- std::map keeps the keys of a dumped object in order.
def toJson (env : CryptoEnvelope) : Str :=
  dumpsWith .compact (.obj
    [(str "ciphertext", .str env.ciphertext),
      (str "iv", .str env.iv),
      (str "msg_id", .str env.msgId),
      (str "nonce", .str env.nonce),
      (str "signature", .str env.signature),
      (str "tag", .str env.tag),
      (str "timestamp", .int env.timestamp),
      (str "type", .str env.type)])

def encrypt (now : Int) (draws : Draws) (plaintext : Bytes) (type : MessageType) : Except Exn CryptoEnvelope :=
  let encResult := c.cipher.encrypt draws.iv plaintext []
  if !encResult.ok then .error (.runtimeError (str "Encryption failed: " ++ encResult.error))
  else
    let env : CryptoEnvelope :=
      { msgId := generateUuid draws.uuid
        timestamp := now
        nonce := ssl.base64Encode draws.nonce
        type := type.value
        iv := ssl.base64Encode encResult.iv
        ciphertext := ssl.base64Encode encResult.ciphertext
        tag := ssl.base64Encode encResult.tag
        signature := [] }
    .ok { env with signature := ssl.base64Encode (c.signer.sign draws.entropy (bytes (buildSigningPayload env))) }

def Encrypts (draws : Draws) (plaintext : Bytes) : Prop :=
  ∃ out, c.cipher.evpEncrypt draws.iv plaintext (toInt plaintext.length) = .ok out

theorem encrypt_ok_iff {now : Int} {draws : Draws} {plaintext : Bytes} {type : MessageType}
    (hiv : draws.iv.length = 12) :
    (∃ env, c.encrypt ssl now draws plaintext type = .ok env) ↔ c.Encrypts draws plaintext := by
  simp only [encrypt, AesGcmCipher.encrypt, if_true, hiv, ne_eq, not_true_eq_false, if_false, Encrypts]
  cases c.cipher.evpEncrypt draws.iv plaintext (toInt plaintext.length) with
  | error e => simp
  | ok out => simp

end Encrypt

section Decrypt

variable (ssl : OpenSsl) (c : CryptoCodec)

def noted (text msgId : Str) : Str := text ++ str " (msg_id=" ++ msgId ++ str ")"

-- now₁ is read for the window test, now₂ for the expiry of the recorded nonce.
def decrypt (now₁ now₂ : Int) (env : CryptoEnvelope) : DecryptResult × CryptoCodec :=
  if !ReplayGuard.isWithinWindow c.guard now₁ env.timestamp then
    ({ error := noted (str "Timestamp outside acceptable window") env.msgId }, c)
  else if ReplayGuard.isReplay c.guard env.nonce then
    ({ error := noted (str "Replay detected: nonce already seen") env.msgId }, c)
  else if !c.verifier.verify (bytes (buildSigningPayload env)) (ssl.base64Decode env.signature) then
    ({ error := noted (str "ECDSA signature verification failed") env.msgId }, c)
  else
    let decResult := c.cipher.decrypt (ssl.base64Decode env.ciphertext) (ssl.base64Decode env.iv) (ssl.base64Decode env.tag)
    if !decResult.ok then
      ({ error := noted (str "AES-GCM decryption failed: " ++ decResult.error) env.msgId }, c)
    else
      ({ plaintext := decResult.plaintext, ok := true },
        { c with guard := ReplayGuard.recordNonce c.guard now₂ env.nonce })

structure Accepts (now : Int) (env : CryptoEnvelope) : Prop where
  inWindow : ReplayGuard.isWithinWindow c.guard now env.timestamp = true
  unseen : ReplayGuard.isReplay c.guard env.nonce = false
  verified : c.verifier.verify (bytes (buildSigningPayload env)) (ssl.base64Decode env.signature) = true
  authentic : (c.cipher.decrypt (ssl.base64Decode env.ciphertext) (ssl.base64Decode env.iv) (ssl.base64Decode env.tag)).ok = true

theorem decrypt_ok_iff {now₁ now₂ : Int} {env : CryptoEnvelope} :
    (c.decrypt ssl now₁ now₂ env).1.ok = true ↔ c.Accepts ssl now₁ env := by
  constructor
  · intro h
    simp only [decrypt] at h
    split_ifs at h with hwindow hreplay hverify hcipher
    exact ⟨by simpa using hwindow, by simpa using hreplay, by simpa using hverify, by simpa using hcipher⟩
  · rintro ⟨hwindow, hreplay, hverify, hcipher⟩
    simp [decrypt, hwindow, hreplay, hverify, hcipher]

end Decrypt

end CryptoCodec
end Agent
