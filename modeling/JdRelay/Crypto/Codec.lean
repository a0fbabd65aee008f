import JdRelay.Crypto.Envelope
import JdRelay.Crypto.ReplayGuard

namespace Crypto
open Text Json

-- cryptography's AESGCM(key): an error carries the text of the exception it raises.
structure Aead where
  encrypt : (iv plaintext : Bytes) → Except Str Bytes
  decrypt : (iv ctWithTag : Bytes) → Except Str Bytes

structure EncryptResult where
  ciphertext : Bytes := []
  iv : Bytes := []
  tag : Bytes := []
  ok : Bool := false
  error : Str := []

structure CipherResult where
  plaintext : Bytes := []
  ok : Bool := false
  error : Str := []

def keySize : Nat := 32

def ivSize : Nat := 12

def tagSize : Nat := 16

structure AesGcmCipher where
  key : Bytes
  aead : Aead
  key_size : key.length = keySize

namespace AesGcmCipher

def natText (n : Nat) : Str := Number.natStr n

-- random is what random_bytes(IV_SIZE) draws when the caller gives no iv.
def encrypt (c : AesGcmCipher) (random plaintext : Bytes) (iv : Option Bytes) : EncryptResult :=
  let useIv := match iv with
    | none => random
    | some iv => if iv = [] then random else iv
  if useIv.length ≠ ivSize then
    { error := str "IV must be 12 bytes for AES-GCM, got " ++ natText useIv.length }
  else match c.aead.encrypt useIv plaintext with
    | .error e => { error := str "Encryption failed: " ++ e }
    | .ok ctWithTag =>
        { ciphertext := ctWithTag.take (ctWithTag.length - tagSize)
          tag := ctWithTag.drop (ctWithTag.length - tagSize)
          iv := useIv
          ok := true }

def decrypt (c : AesGcmCipher) (ciphertext iv tag : Bytes) : CipherResult :=
  if iv.length ≠ ivSize then
    { error := str "IV must be 12 bytes, got " ++ natText iv.length }
  else if tag.length ≠ tagSize then
    { error := str "Tag must be 16 bytes, got " ++ natText tag.length }
  else match c.aead.decrypt iv (ciphertext ++ tag) with
    | .error e => { error := str "AES-GCM authentication tag verification failed: " ++ e }
    | .ok plaintext => { plaintext, ok := true }

theorem encrypt_none_iv {c : AesGcmCipher} {random plaintext : Bytes}
    (h : (c.encrypt random plaintext none).ok = true) : (c.encrypt random plaintext none).iv = random := by
  simp only [encrypt] at h ⊢
  split
  · simp_all
  · split <;> simp_all

end AesGcmCipher

structure PublicKey where
  verifies : (signature data : Bytes) → Bool

structure PrivateKey where
  sign : (entropy data : Bytes) → Bytes
  publicKey : PublicKey

structure EcdsaSigner where
  privateKey : Option PrivateKey
  publicKey : Option PublicKey

namespace EcdsaSigner

def sign (s : EcdsaSigner) (entropy data : Bytes) : Bytes :=
  match s.privateKey with
  | none => []
  | some k => k.sign entropy data

def verify (s : EcdsaSigner) (data signature : Bytes) : Bool :=
  match s.publicKey, s.privateKey with
  | some k, _ => k.verifies signature data
  | none, some k => k.publicKey.verifies signature data
  | none, none => false

end EcdsaSigner

inductive Rejection where
  | timestamp (msgId : Value)
  | replay (msgId : Value)
  | signature (msgId : Value)
  | cipher (error : Str) (msgId : Value)
  deriving DecidableEq

namespace Rejection

def noted (text : Str) (msgId : Str) : Str := text ++ str " (msg_id=" ++ msgId ++ str ")"

def text (reprOf : Value → Str) : Rejection → Str
  | timestamp m => noted (str "Timestamp outside acceptable window") (Python.strOf reprOf m)
  | replay m => noted (str "Replay detected: nonce already seen") (Python.strOf reprOf m)
  | signature m => noted (str "ECDSA signature verification failed") (Python.strOf reprOf m)
  | cipher e m => noted (str "AES-GCM decryption failed: " ++ e) (Python.strOf reprOf m)

end Rejection

structure DecryptResult where
  plaintext : Bytes := []
  ok : Bool := false
  error : Option Rejection := none
  deriving DecidableEq

structure CryptoCodec where
  cipher : AesGcmCipher
  signer : EcdsaSigner
  verifier : EcdsaSigner
  guard : ReplayGuard Str

-- The random values of one encrypt call: uuid4's bytes, the nonce, the iv and the signature's own entropy.
structure Draws where
  uuid : Bytes
  nonce : Bytes
  iv : Bytes
  entropy : Bytes

namespace CryptoCodec

variable (reprOf : Value → Str)

def metadata (now : Int) (draws : Draws) (msgType : MessageType) (enc : EncryptResult) : CryptoEnvelope where
  msgId := .str (generateUuid draws.uuid)
  timestamp := .int now
  nonce := .str (b64Encode draws.nonce)
  type := .str msgType.value
  iv := .str (b64Encode enc.iv)
  ciphertext := .str (b64Encode enc.ciphertext)
  tag := .str (b64Encode enc.tag)

def utf8 (s : Str) : Except Python.Error Bytes :=
  match encodeUtf8 s with
  | none => .error .unicodeEncodeError
  | some b => .ok b

def sealEnvelope (c : CryptoCodec) (now : Int) (draws : Draws) (plaintext : Bytes) (msgType : MessageType) :
    Except Python.Error CryptoEnvelope := do
  let enc := c.cipher.encrypt draws.iv plaintext none
  if !enc.ok then .error (.runtimeError (str "Encryption failed: " ++ enc.error)) else
  let env := metadata now draws msgType enc
  let payload ← env.buildSigningPayload reprOf
  let data ← utf8 payload
  .ok { env with signature := .str (b64Encode (c.signer.sign draws.entropy data)) }

def encrypt (c : CryptoCodec) (now : Int) (draws : Draws) (plaintext : Bytes) (msgType : MessageType) :
    Except Python.Error Str :=
  (c.sealEnvelope reprOf now draws plaintext msgType).map CryptoEnvelope.toJson

inductive Refusal where
  | raised (e : Python.Error)
  | rejected (r : Rejection)
  deriving DecidableEq

def b64Field : Value → Except Python.Error Bytes
  | .str s => match b64Decode s with
    | none => .error .valueError
    | some b => .ok b
  | _ => .error .attributeError

-- Only str nonces are ever recorded; an unhashable one makes the lookup raise.
def seen (g : ReplayGuard Str) : Value → Except Python.Error Bool
  | .str n => .ok (g.isReplay n)
  | .arr _ => .error .typeError
  | .obj _ => .error .typeError
  | _ => .ok false

def within (g : ReplayGuard Str) (now : Int) (timestamp : Value) : Except Python.Error Bool :=
  Python.between (now - g.windowMs) (now + g.windowMs) timestamp

def lift {A : Type} : Except Python.Error A → Except Refusal A
  | .ok a => .ok a
  | .error e => .error (.raised e)

def require (b : Bool) (r : Rejection) : Except Refusal Unit :=
  if b then .ok () else .error (.rejected r)

def checkFresh (c : CryptoCodec) (now : Int) (env : CryptoEnvelope) : Except Refusal Unit := do
  let inWindow ← lift (within c.guard now env.timestamp)
  require inWindow (.timestamp env.msgId)
  let replay ← lift (seen c.guard env.nonce)
  require (!replay) (.replay env.msgId)

def checkSignature (c : CryptoCodec) (env : CryptoEnvelope) : Except Refusal Unit := do
  let payload ← lift (env.buildSigningPayload reprOf)
  let signature ← lift (b64Field env.signature)
  let data ← lift (utf8 payload)
  require (c.verifier.verify data signature) (.signature env.msgId)

def openCiphertext (c : CryptoCodec) (env : CryptoEnvelope) : Except Refusal Bytes := do
  let ciphertext ← lift (b64Field env.ciphertext)
  let iv ← lift (b64Field env.iv)
  let tag ← lift (b64Field env.tag)
  let dec := c.cipher.decrypt ciphertext iv tag
  require dec.ok (.cipher dec.error env.msgId)
  .ok dec.plaintext

def validate (c : CryptoCodec) (now : Int) (jsonStr : Str) : Except Refusal (CryptoEnvelope × Bytes) := do
  let env ← lift (CryptoEnvelope.fromJson jsonStr)
  c.checkFresh now env
  c.checkSignature reprOf env
  let plaintext ← c.openCiphertext env
  .ok (env, plaintext)

def recordNonce (c : CryptoCodec) (now : Int) : Value → CryptoCodec
  | .str n => { c with guard := c.guard.recordNonce now n }
  | _ => c

-- now₁ is read for the window test, now₂ for the expiry of the recorded nonce.
def decrypt (c : CryptoCodec) (now₁ now₂ : Int) (jsonStr : Str) :
    Except Python.Error DecryptResult × CryptoCodec :=
  match c.validate reprOf now₁ jsonStr with
  | .error (.raised e) => (.error e, c)
  | .error (.rejected r) => (.ok { error := some r }, c)
  | .ok (env, plaintext) => (.ok { plaintext, ok := true }, c.recordNonce now₂ env.nonce)

theorem lift_ok {A : Type} {x : Except Python.Error A} {a : A} : lift x = .ok a ↔ x = .ok a := by
  cases x <;> simp [lift]

theorem require_ok {b : Bool} {r : Rejection} {u : Unit} : require b r = .ok u ↔ b = true := by
  cases b <;> simp [require]

theorem b64Field_ok {v : Value} {b : Bytes} : b64Field v = .ok b ↔ ∃ s, v = .str s ∧ b64Decode s = some b := by
  cases v with
  | str s => cases h : b64Decode s <;> simp [b64Field, h]
  | _ => simp [b64Field]

theorem utf8_ok {s : Str} {b : Bytes} : utf8 s = .ok b ↔ encodeUtf8 s = some b := by
  cases h : encodeUtf8 s <;> simp [utf8, h]

structure Fresh (c : CryptoCodec) (now : Int) (env : CryptoEnvelope) : Prop where
  inWindow : within c.guard now env.timestamp = .ok true
  unseen : ∀ n, env.nonce = .str n → n ∉ c.guard.nonces

structure Signed (c : CryptoCodec) (env : CryptoEnvelope) (payload : Str) (data signature : Bytes) : Prop where
  built : env.buildSigningPayload reprOf = .ok payload
  decoded : b64Field env.signature = .ok signature
  encoded : encodeUtf8 payload = some data
  verified : c.verifier.verify data signature = true

structure Opened (c : CryptoCodec) (env : CryptoEnvelope) (ciphertext iv tag plaintext : Bytes) : Prop where
  ciphertextField : b64Field env.ciphertext = .ok ciphertext
  ivField : b64Field env.iv = .ok iv
  tagField : b64Field env.tag = .ok tag
  authentic : (c.cipher.decrypt ciphertext iv tag).ok = true
  result : (c.cipher.decrypt ciphertext iv tag).plaintext = plaintext

theorem checkFresh_ok {c : CryptoCodec} {now : Int} {env : CryptoEnvelope} {u : Unit}
    (h : c.checkFresh now env = .ok u) : c.Fresh now env := by
  simp only [checkFresh, Python.bind_ok, lift_ok, require_ok] at h
  obtain ⟨inWindow, hw, _, rfl, replay, hr, hn⟩ := h
  refine ⟨hw, fun n hnonce hmem => ?_⟩
  rw [hnonce] at hr
  cases hr
  rw [ReplayGuard.isReplay_iff.mpr hmem] at hn
  cases hn

theorem checkSignature_ok {c : CryptoCodec} {env : CryptoEnvelope} {u : Unit}
    (h : c.checkSignature reprOf env = .ok u) :
    ∃ payload data signature, c.Signed reprOf env payload data signature := by
  simp only [checkSignature, Python.bind_ok, lift_ok, require_ok, utf8_ok] at h
  obtain ⟨payload, hp, signature, hs, data, hd, hv⟩ := h
  exact ⟨payload, data, signature, hp, hs, hd, hv⟩

theorem openCiphertext_ok {c : CryptoCodec} {env : CryptoEnvelope} {plaintext : Bytes}
    (h : c.openCiphertext env = .ok plaintext) :
    ∃ ciphertext iv tag, c.Opened env ciphertext iv tag plaintext := by
  simp only [openCiphertext, Python.bind_ok, lift_ok, require_ok] at h
  obtain ⟨ciphertext, hc, iv, hi, tag, ht, _, hok, hp⟩ := h
  exact ⟨ciphertext, iv, tag, hc, hi, ht, hok, Except.ok.inj hp⟩

theorem validate_ok {c : CryptoCodec} {now : Int} {jsonStr : Str} {env : CryptoEnvelope} {plaintext : Bytes}
    (h : c.validate reprOf now jsonStr = .ok (env, plaintext)) :
    CryptoEnvelope.fromJson jsonStr = .ok env ∧ c.Fresh now env ∧
      (∃ payload data signature, c.Signed reprOf env payload data signature) ∧
      ∃ ciphertext iv tag, c.Opened env ciphertext iv tag plaintext := by
  simp only [validate, Python.bind_ok, lift_ok] at h
  obtain ⟨env', hj, _, hf, _, hs, plaintext', ho, he⟩ := h
  cases he
  exact ⟨hj, checkFresh_ok hf, checkSignature_ok reprOf hs, openCiphertext_ok ho⟩

theorem sealEnvelope_ok {c : CryptoCodec} {now : Int} {draws : Draws} {plaintext : Bytes}
    {msgType : MessageType} {env : CryptoEnvelope}
    (h : c.sealEnvelope reprOf now draws plaintext msgType = .ok env) :
    (c.cipher.encrypt draws.iv plaintext none).ok = true ∧
      ∃ signature, env = { metadata now draws msgType (c.cipher.encrypt draws.iv plaintext none) with signature } := by
  simp only [sealEnvelope] at h
  split at h
  · cases h
  · rename_i hok
    simp only [Python.bind_ok] at h
    obtain ⟨payload, _, data, _, he⟩ := h
    exact ⟨by simpa using hok, _, (Except.ok.inj he).symm⟩

end CryptoCodec
end Crypto
