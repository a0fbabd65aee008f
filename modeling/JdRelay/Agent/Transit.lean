import JdRelay.Agent.Interop
import JdRelay.Base.RoundTrip

namespace Agent.Transit
open Text Json Crypto Interop
open Base64Text (toInt)

inductive Party where
  | py (c : Crypto.CryptoCodec)
  | cpp (c : CryptoCodec)

namespace Party

def guard : Party → ReplayGuard Str
  | py c => c.guard
  | cpp c => c.guard

def signer : Party → EcdsaSigner
  | py c => c.signer
  | cpp c => c.signer

def verifier : Party → EcdsaSigner
  | py c => c.verifier
  | cpp c => c.verifier

end Party

structure Received where
  plaintext : Bytes
  type : MessageType
  guard : ReplayGuard Str

-- The property msg_type of the Python envelope.
def msgType : Value → Except Python.Error MessageType
  | .str s => MessageType.parse s
  | _ => .error .valueError

section Exchange

variable (reprOf : Value → Str) (nl : Nlohmann) (ssl : OpenSsl)

def send (now : Int) (draws : Draws) (plaintext : Bytes) (type : MessageType) : Party → Option Str
  | .py c => (c.encrypt reprOf now draws plaintext type).toOption
  | .cpp c => (c.encrypt ssl now draws plaintext type).toOption.map CryptoCodec.toJson

def receive (now₁ now₂ : Int) (text : Str) : Party → Option Received
  | .py c => do
      let env ← (Crypto.CryptoEnvelope.fromJson text).toOption
      let r ← (c.decrypt reprOf now₁ now₂ text).1.toOption
      let type ← (msgType env.type).toOption
      if r.ok then some ⟨r.plaintext, type, (c.decrypt reprOf now₁ now₂ text).2.guard⟩ else none
  | .cpp c => do
      let data ← encodeUtf8 text
      let env ← (CryptoCodec.fromJson nl data).toOption
      let r := c.decrypt ssl now₁ now₂ env
      let type ← (parseMessageType env.type).toOption
      if r.1.ok then some ⟨r.1.plaintext, type, r.2.guard⟩ else none

structure AesGcm where
  encrypted : (iv plaintext : Bytes) → Bytes × Bytes
  size : ∀ iv plaintext, (encrypted iv plaintext).1.length = plaintext.length
  tagSize : ∀ iv plaintext, (encrypted iv plaintext).2.length = 16

-- EVP_EncryptUpdate reads the first inl bytes of its input.
def Seals (gcm : AesGcm) : Party → Prop
  | .py c => ∀ iv plaintext, iv.length = 12 → plaintext.length < 2147483648 →
      c.cipher.aead.encrypt iv plaintext = .ok ((gcm.encrypted iv plaintext).1 ++ (gcm.encrypted iv plaintext).2)
  | .cpp c => ∀ iv plaintext (inl : Nat), iv.length = 12 → inl < 2147483648 → inl ≤ plaintext.length →
      c.cipher.evpEncrypt iv plaintext inl = .ok (gcm.encrypted iv (plaintext.take inl))

-- AESGCM raises OverflowError from 2^31 bytes on; EVP_EncryptUpdate fails for a negative length.
def Refuses : Party → Prop
  | .py c => ∀ iv plaintext, 2147483648 ≤ plaintext.length → ∃ e, c.cipher.aead.encrypt iv plaintext = .error e
  | .cpp c => ∀ iv plaintext inl, inl < 0 → ∃ e, c.cipher.evpEncrypt iv plaintext inl = .error e

def Opens (gcm : AesGcm) : Party → Prop
  | .py c => ∀ iv plaintext, iv.length = 12 → plaintext.length < 2147483648 →
      c.cipher.aead.decrypt iv ((gcm.encrypted iv plaintext).1 ++ (gcm.encrypted iv plaintext).2) = .ok plaintext
  | .cpp c => ∀ iv plaintext, iv.length = 12 → plaintext.length < 2147483648 →
      c.cipher.evpDecrypt (gcm.encrypted iv plaintext).1 plaintext.length iv (gcm.encrypted iv plaintext).2 =
        .ok plaintext

-- EVP_DecryptUpdate writes as many bytes as it reads.
def Measures : Party → Prop
  | .py _ => True
  | .cpp c => ∀ ciphertext inl iv tag plaintext, c.cipher.evpDecrypt ciphertext inl iv tag = .ok plaintext →
      (plaintext.length : Int) = inl

-- The DER form of a signature over P-256.
def Der (signer : EcdsaSigner) : Prop := ∀ entropy data, (signer.sign entropy data).length ≤ 72

structure Signs (signer verifier : EcdsaSigner) : Prop where
  verifies : ∀ entropy data, verifier.verify data (signer.sign entropy data) = true
  der : Der signer

structure Keyed (gcm : AesGcm) (p : Party) : Prop where
  seals : Seals gcm p
  opens : Opens gcm p
  der : Der p.signer

-- BIO_f_base64 writes fewer than limit bytes in lines of 64 characters, each with its newline, and reads such lines.
structure Bio (limit : Nat) : Prop where
  write : ∀ data, data.length < limit → ssl.bioWrite data = Base64Text.bioText data
  read : ∀ data, (b64Encode data).length < 2147483648 → ssl.bioRead (bytes (b64Encode data)) = data
  atLeast : 1024 ≤ limit
  atMost : limit ≤ 2147483648

def Int64 (n : Int) : Prop := -2 ^ 63 ≤ n ∧ n < 2 ^ 63

inductive Wire : Value → Prop where
  | str {s : Str} (hs : Scalar s) : Wire (.str s)
  | int {n : Int} (hn : Int64 n) : Wire (.int n)

-- nlohmann reads a flat object of strings and int64 numbers as Python does.
structure ReadsFlat : Prop where
  reads : ∀ {text data fields}, encodeUtf8 text = some data → loads text = some (.obj fields) →
    (∀ f ∈ fields, Scalar f.1) → (∀ f ∈ fields, Wire f.2) → ∃ fields', nl.parse data = some (.obj fields') ∧
      ∀ key, lookup? fields' key = lookup? fields key

structure Drawn (draws : Draws) : Prop where
  uuidSize : draws.uuid.length = 16
  ivSize : draws.iv.length = 12
  nonceSize : draws.nonce.length = 16

-- The texts of both encoders: C++ writes nothing where Python writes a newline.
inductive Coded : Str → Bytes → Prop where
  | lines (data : Bytes) : Coded (b64Encode data) data
  | empty : Coded [] []

-- The cast to int leaves C++ a prefix of a plaintext from 2^32 bytes on.
def sealedPart : Party → Bytes → Option Bytes
  | .py _, plaintext => if plaintext.length < 2147483648 then some plaintext else none
  | .cpp _, plaintext => if toInt plaintext.length < 0 then none else some (plaintext.take (toInt plaintext.length).toNat)

def Held (limit : Nat) : Party → Bytes → Prop
  | .py _, _ => True
  | .cpp _, plaintext => plaintext.length < limit

-- The base64 text of 1585834077 bytes is the longest one whose length an int holds.
def Fits : Party → Bytes → Prop
  | .py _, plaintext => plaintext.length < 2147483648
  | .cpp _, plaintext => plaintext.length ≤ 1585834077

def RoundTrip (sender receiver : Party) (now now₁ now₂ : Int) (draws : Draws) (plaintext : Bytes) (type : MessageType) :
    Prop :=
  ∃ text out, send reprOf ssl now draws plaintext type sender = some text ∧
    receive reprOf nl ssl now₁ now₂ text receiver = some out ∧
    out.plaintext = plaintext ∧ out.type = type ∧ b64Encode draws.nonce ∈ out.guard.nonces

end Exchange

structure Genuine (env : CryptoEnvelope) (now : Int) (draws : Draws) (type : MessageType) (m : Sealed) : Prop where
  msgId : env.msgId = generateUuid draws.uuid
  timestamp : env.timestamp = now
  nonce : env.nonce = b64Encode draws.nonce
  type : env.type = type.value
  payload : bytes (buildSigningPayload env) = m.payload
  signature : Coded env.signature m.signature
  ciphertext : Coded env.ciphertext m.ciphertext
  iv : Coded env.iv m.iv
  tag : Coded env.tag m.tag
  der : m.signature.length ≤ 72

structure Reads (env : CryptoEnvelope) (fields : List (Str × Value)) : Prop where
  msgId : lookup? fields (str "msg_id") = some (.str env.msgId)
  timestamp : lookup? fields (str "timestamp") = some (.int env.timestamp)
  nonce : lookup? fields (str "nonce") = some (.str env.nonce)
  type : lookup? fields (str "type") = some (.str env.type)
  iv : lookup? fields (str "iv") = some (.str env.iv)
  ciphertext : lookup? fields (str "ciphertext") = some (.str env.ciphertext)
  tag : lookup? fields (str "tag") = some (.str env.tag)
  signature : lookup? fields (str "signature") = some (.str env.signature)

def pyFields (env : CryptoEnvelope) : List (Str × Value) :=
  [(str "msg_id", .str env.msgId), (str "timestamp", .int env.timestamp), (str "nonce", .str env.nonce),
    (str "type", .str env.type), (str "iv", .str env.iv), (str "ciphertext", .str env.ciphertext),
    (str "tag", .str env.tag), (str "signature", .str env.signature)]

def cppFields (env : CryptoEnvelope) : List (Str × Value) :=
  [(str "ciphertext", .str env.ciphertext), (str "iv", .str env.iv), (str "msg_id", .str env.msgId),
    (str "nonce", .str env.nonce), (str "signature", .str env.signature), (str "tag", .str env.tag),
    (str "timestamp", .int env.timestamp), (str "type", .str env.type)]

theorem reads_pyFields (env : CryptoEnvelope) : Reads env (pyFields env) :=
  ⟨rfl, rfl, rfl, rfl, rfl, rfl, rfl, rfl⟩

theorem reads_cppFields (env : CryptoEnvelope) : Reads env (cppFields env) :=
  ⟨rfl, rfl, rfl, rfl, rfl, rfl, rfl, rfl⟩

section Text

theorem wire_flat {v : Value} (hv : Wire v) : Flat v := by
  cases hv with
  | str hs => exact .str _
  | @int n hn =>
      have hsmall : n.natAbs < 10 ^ 20 := by
        obtain ⟨hlo, hhi⟩ := hn
        omega
      have hdigits := (Nat.length_toDigits_le_iff (b := 10) (by omega) (by omega)).mpr hsmall
      refine .int ?_
      rw [Number.natStr, List.length_map]
      exact hdigits.trans (by decide)

theorem scalar_wire {v : Value} (hv : Wire v) : Scalar (dumpsWith .compact v) := by
  cases hv with
  | str hs => exact scalar_quoted hs
  | int hn => exact Number.scalar_intStr _

theorem wire_text {fields : List (Str × Value)} (hne : fields ≠ []) (hkeys : ∀ f ∈ fields, Scalar f.1)
    (hwire : ∀ f ∈ fields, Wire f.2) : loads (dumpsWith .compact (.obj fields)) = some (.obj fields) ∧
      ∃ data, encodeUtf8 (dumpsWith .compact (.obj fields)) = some data := by
  have hscalar := scalar_dumps fun f hf => ⟨hkeys f hf, scalar_wire (hwire f hf)⟩
  exact ⟨loads_dumps_flat hne fun f hf => wire_flat (hwire f hf), Option.isSome_iff_exists.mp (scalar_iff.mpr hscalar)⟩

end Text

section Read

variable {nl : Nlohmann} {env : CryptoEnvelope} {fields : List (Str × Value)}

theorem Reads.congr (h : Reads env fields) {fields' : List (Str × Value)}
    (heq : ∀ key, lookup? fields' key = lookup? fields key) : Reads env fields' :=
  ⟨(heq _).trans h.msgId, (heq _).trans h.timestamp, (heq _).trans h.nonce, (heq _).trans h.type, (heq _).trans h.iv,
    (heq _).trans h.ciphertext, (heq _).trans h.tag, (heq _).trans h.signature⟩

theorem Reads.py (h : Reads env fields) : Crypto.CryptoEnvelope.ofFields fields = embed env := by
  simp only [Crypto.CryptoEnvelope.ofFields, Python.get, h.msgId, h.timestamp, h.nonce, h.type, h.iv, h.ciphertext,
    h.tag, h.signature, Option.getD_some, embed]

theorem bmod_int64 {n : Int} (hn : Int64 n) : n.bmod (2 ^ 64) = n := by
  obtain ⟨hlo, hhi⟩ := hn
  exact Int.bmod_eq_of_le (by omega) (by omega)

theorem Reads.cpp (h : Reads env fields) (htime : Int64 env.timestamp) :
    CryptoCodec.WellTyped nl fields ∧ CryptoCodec.ofFields nl fields = env := by
  have hstamp : nl.getLongLong (.int env.timestamp) = some env.timestamp := congrArg some (bmod_int64 htime)
  constructor
  · simp only [CryptoCodec.WellTyped, CryptoCodec.textField, Nlohmann.hasType, h.msgId, h.timestamp, h.nonce, h.type,
      h.iv, h.ciphertext, h.tag, h.signature, Option.all_some, hstamp, Nlohmann.getString, Option.isSome_some, and_self]
  · simp only [CryptoCodec.ofFields, CryptoCodec.text, Nlohmann.valueOr, h.msgId, h.timestamp, h.nonce, h.type, h.iv,
      h.ciphertext, h.tag, h.signature, Option.bind_some, hstamp, Nlohmann.getString, Option.getD_some]

end Read

theorem ascii_b64Encode {data : Bytes} {p : CodePoint} (hp : p ∈ b64Encode data) : p.val < 128 := by
  have hdigit : ∀ i : Fin 64, (Base64.digit i).val < 128 := by decide
  by_contra hnot
  refine notMem_b64Encode (fun h => hnot ?_) (fun h => hnot ?_) (fun i h => hnot ?_) data hp
  · rw [h]
    decide
  · rw [h]
    decide
  · rw [h]
    exact hdigit i

theorem scalar_b64Encode (data : Bytes) : Scalar (b64Encode data) := by
  have hdigit : ∀ i : Fin 64, (toChar? (Base64.digit i)).isSome = true := by decide
  intro p hp
  by_contra hnot
  refine notMem_b64Encode (fun h => hnot ?_) (fun h => hnot ?_) (fun i h => hnot ?_) data hp
  · rw [h]
    decide
  · rw [h]
    decide
  · rw [h]
    exact hdigit i

theorem scalar_generateUuid (random : Bytes) : Scalar (generateUuid random) := by
  intro p hp
  by_contra hnot
  refine notMem_generateUuid (fun h => hnot ?_) (fun n hn h => hnot ?_) random hp
  · rw [h]
    decide
  · rw [h, toChar?_ofChar]
    rfl

theorem scalar_value (type : MessageType) : Scalar type.value := by cases type <;> exact scalar_str _

section Keys

variable {gcm : AesGcm}

theorem Keyed.py_guard {c : Crypto.CryptoCodec} (h : Keyed gcm (.py c)) (guard : ReplayGuard Str) :
    Keyed gcm (.py { c with guard }) := ⟨h.seals, h.opens, h.der⟩

theorem Keyed.cpp_guard {c : CryptoCodec} (h : Keyed gcm (.cpp c)) (guard : ReplayGuard Str) :
    Keyed gcm (.cpp { c with guard }) := ⟨h.seals, h.opens, h.der⟩

end Keys

section Texts

variable {ssl : OpenSsl} {limit : Nat} {s : Str} {data : Bytes}

theorem Coded.py (h : Coded s data) : b64Decode s = some data := by
  cases h with
  | lines => exact b64Decode_b64Encode data
  | empty => rfl

theorem Coded.scalar (h : Coded s data) : Scalar s := by
  cases h with
  | lines => exact scalar_b64Encode data
  | empty => exact nofun

theorem Coded.eq_lines (h : Coded s data) (hne : data ≠ []) : s = b64Encode data := by
  cases h with
  | lines => rfl
  | empty => exact absurd rfl hne

theorem length_bytes_b64Encode (data : Bytes) : (bytes (b64Encode data)).length = max 1 (Base64Text.textSize data.length) := by
  obtain ⟨b, hb⟩ := Option.isSome_iff_exists.mp (scalar_iff.mpr (scalar_b64Encode data))
  rw [bytes, hb, Option.getD_some, length_encodeUtf8_ascii hb fun p hp => ascii_b64Encode hp,
    Base64Text.length_b64Encode]

theorem Coded.cpp (hbio : Bio ssl limit) (h : Coded s data) (hsize : data.length ≤ 1585834077) :
    ssl.base64Decode s = data := by
  cases h with
  | empty => rfl
  | lines =>
      have htext := Base64Text.textSize_lt_iff.mpr hsize
      have hle := Base64Text.le_textSize data.length
      have hread := hbio.read data (by rw [Base64Text.length_b64Encode]; omega)
      have hint : (toInt (bytes (b64Encode data)).length).toNat = (bytes (b64Encode data)).length :=
        Base64Text.toInt_of_lt (by rw [length_bytes_b64Encode]; omega)
      rw [OpenSsl.base64Decode]
      simp only [hint, List.take_length, hread]
      exact List.take_of_length_le (by rw [length_bytes_b64Encode]; omega)

theorem Coded.cpp_long (h : Coded s data) (hlong : 1585834077 < data.length) (hsize : data.length < 2147483648) :
    ssl.base64Decode s = [] := by
  cases h with
  | empty => cases hlong
  | lines =>
      have hlo := mt Base64Text.textSize_lt_iff.mp (not_le.mpr hlong)
      have hhi : Base64Text.textSize data.length < 4294967296 := by
        unfold Base64Text.textSize
        omega
      have hint : (toInt (bytes (b64Encode data)).length).toNat = 0 := by
        rw [length_bytes_b64Encode, toInt]
        split <;> omega
      rw [OpenSsl.base64Decode]
      simp only [hint, List.take_zero]

theorem base64Encode_eq (hbio : Bio ssl limit) (h : data.length < limit) :
    ssl.base64Encode data = Base64Text.base64Encode data :=
  hbio.write _ ((List.length_take_le' _ _).trans_lt h)

theorem coded_bio (hbio : Bio ssl limit) (h : data.length < limit) : Coded (ssl.base64Encode data) data := by
  rw [base64Encode_eq hbio h, Base64Text.base64Encode, Base64Text.toInt_of_lt (h.trans_le hbio.atMost), List.take_length]
  rcases eq_or_ne data [] with rfl | hne
  · exact .empty
  · rw [Base64Text.bioText_of_ne_nil hne]
    exact .lines data

theorem sealedPart_short {plaintext : Bytes} (h : plaintext.length < 2147483648) (sender : Party) :
    sealedPart sender plaintext = some plaintext := by
  cases sender with
  | py c => exact if_pos h
  | cpp c =>
      rw [sealedPart, Base64Text.toInt_eq h, if_neg (by omega), Int.toNat_natCast, List.take_length]

theorem held_all {part : Bytes} (h : part.length < 2147483648) (sender : Party) : Held 2147483648 sender part := by
  cases sender with
  | py c => trivial
  | cpp c => exact h

theorem fits_short {receiver : Party} {plaintext : Bytes} (h : Fits receiver plaintext) : plaintext.length < 2147483648 := by
  cases receiver with
  | py c => exact h
  | cpp c => exact lt_of_le_of_lt h (by decide)

theorem length_sealedPart {sender : Party} {plaintext part : Bytes} (h : sealedPart sender plaintext = some part) :
    part.length < 2147483648 := by
  cases sender with
  | py c =>
      simp only [sealedPart, Option.ite_none_right_eq_some, Option.some.injEq] at h
      exact h.2 ▸ h.1
  | cpp c =>
      simp only [sealedPart, Option.ite_none_left_eq_some, Option.some.injEq] at h
      rw [← h.2]
      exact (List.length_take_le _ _).trans_lt (Base64Text.toInt_lt _)

end Texts

section Sender

variable {reprOf : Value → Str} {ssl : OpenSsl} {limit : Nat} {now : Int} {draws : Draws} {type : MessageType}
  {plaintext : Bytes}

def envelopeOf (b64 : Bytes → Str) (now : Int) (draws : Draws) (type : MessageType) (enc : Bytes × Bytes)
    (signature : Bytes) : CryptoEnvelope where
  msgId := generateUuid draws.uuid
  timestamp := now
  nonce := b64 draws.nonce
  type := type.value
  iv := b64 draws.iv
  ciphertext := b64 enc.1
  tag := b64 enc.2
  signature := b64 signature

def signed (signer : EcdsaSigner) (b64 : Bytes → Str) (now : Int) (draws : Draws) (type : MessageType)
    (enc : Bytes × Bytes) : Bytes :=
  signer.sign draws.entropy (bytes (buildSigningPayload (envelopeOf b64 now draws type enc [])))

variable {b64 : Bytes → Str} {enc : Bytes × Bytes} {signature : Bytes}

theorem payload_unsigned : buildSigningPayload (envelopeOf b64 now draws type enc signature) =
    buildSigningPayload (envelopeOf b64 now draws type enc []) := rfl

theorem genuine_envelopeOf (hnonce : b64 draws.nonce = b64Encode draws.nonce) (hsignature : Coded (b64 signature) signature)
    (hciphertext : Coded (b64 enc.1) enc.1) (hiv : Coded (b64 draws.iv) draws.iv) (htag : Coded (b64 enc.2) enc.2)
    (hder : signature.length ≤ 72) :
    Genuine (envelopeOf b64 now draws type enc signature) now draws type
      ⟨bytes (buildSigningPayload (envelopeOf b64 now draws type enc [])), signature, enc.1, draws.iv, enc.2⟩ where
  msgId := rfl
  timestamp := rfl
  nonce := hnonce
  type := rfl
  payload := by rw [payload_unsigned]
  signature := hsignature
  ciphertext := hciphertext
  iv := hiv
  tag := htag
  der := hder

theorem genuine_signed {signer : EcdsaSigner} (hder : Der signer) (now : Int) (type : MessageType) (hdraws : Drawn draws)
    (hlimit : 1024 ≤ limit) (hcoded : ∀ data, data.length < limit → Coded (b64 data) data) (henc : enc.1.length < limit)
    (htag : enc.2.length = 16) :
    ∃ m, Genuine (envelopeOf b64 now draws type enc (signed signer b64 now draws type enc)) now draws type m ∧
      m.iv = draws.iv ∧ enc = (m.ciphertext, m.tag) ∧ m.signature = signer.sign draws.entropy m.payload := by
  have hne : draws.nonce ≠ [] := List.ne_nil_of_length_pos (by rw [hdraws.nonceSize]; omega)
  have hnonce := (hcoded draws.nonce (by rw [hdraws.nonceSize]; omega)).eq_lines hne
  have hsize := hder draws.entropy (bytes (buildSigningPayload (envelopeOf b64 now draws type enc [])))
  have hsignature := hcoded _ (hsize.trans_lt (by omega : 72 < limit))
  have hiv := hcoded draws.iv (by rw [hdraws.ivSize]; omega)
  have htagText := hcoded enc.2 (by rw [htag]; omega)
  refine ⟨_, genuine_envelopeOf hnonce hsignature (hcoded _ henc) hiv htagText hsize, rfl, rfl, ?_⟩
  dsimp only [signed]

theorem Genuine.scalar {env : CryptoEnvelope} {m : Sealed} (h : Genuine env now draws type m) :
    Scalar (buildSigningPayload env) := by
  have hmsgId : Scalar env.msgId := h.msgId ▸ scalar_generateUuid _
  have hnonce : Scalar env.nonce := h.nonce ▸ scalar_b64Encode _
  have htype : Scalar env.type := h.type ▸ scalar_value _
  rw [buildSigningPayload_join]
  refine scalar_join (scalar_str "|") ?_
  simp only [List.forall_mem_cons]
  exact ⟨hmsgId, Number.scalar_intStr _, hnonce, htype, h.iv.scalar, h.ciphertext.scalar, h.tag.scalar, nofun⟩

theorem pyEncrypt_eq {c : Crypto.CryptoCodec} (hiv : draws.iv.length = 12) (htag : enc.2.length = 16)
    (henc : c.cipher.aead.encrypt draws.iv plaintext = .ok (enc.1 ++ enc.2)) :
    c.cipher.encrypt draws.iv plaintext none = { ciphertext := enc.1, iv := draws.iv, tag := enc.2, ok := true } := by
  have hsize : (enc.1 ++ enc.2).length - tagSize = enc.1.length := by
    rw [List.length_append, htag]
    rfl
  simp only [Crypto.AesGcmCipher.encrypt, hiv, ivSize, ne_eq, not_true_eq_false, if_false, henc, hsize, List.take_left,
    List.drop_left]

theorem payload_metadata (ok : Bool) (error : Str) :
    (Crypto.CryptoCodec.metadata now draws type ⟨enc.1, draws.iv, enc.2, ok, error⟩).buildSigningPayload reprOf =
      .ok (buildSigningPayload (envelopeOf b64Encode now draws type enc [])) := by
  rw [buildSigningPayload_join]
  rfl

theorem send_py {c : Crypto.CryptoCodec} (hiv : draws.iv.length = 12) (htag : enc.2.length = 16)
    (henc : c.cipher.aead.encrypt draws.iv plaintext = .ok (enc.1 ++ enc.2)) :
    send reprOf ssl now draws plaintext type (.py c) = some (dumpsWith .compact (.obj (pyFields
      (envelopeOf b64Encode now draws type enc (signed c.signer b64Encode now draws type enc))))) := by
  have hgenuine : Genuine (envelopeOf b64Encode now draws type enc []) now draws type _ :=
    genuine_envelopeOf rfl (.lines _) (.lines _) (.lines _) (.lines _) (Nat.zero_le _)
  obtain ⟨data, hdata⟩ := Option.isSome_iff_exists.mp (scalar_iff.mpr hgenuine.scalar)
  have hbytes : bytes (buildSigningPayload (envelopeOf b64Encode now draws type enc [])) = data := by
    rw [bytes, hdata, Option.getD_some]
  have hsealed : c.sealEnvelope reprOf now draws plaintext type =
      .ok (embed (envelopeOf b64Encode now draws type enc (signed c.signer b64Encode now draws type enc))) := by
    rw [Crypto.CryptoCodec.sealEnvelope, pyEncrypt_eq hiv htag henc]
    simp only [Bool.not_true, Bool.false_eq_true, if_false]
    rw [payload_metadata]
    simp only [bind, Except.bind, Crypto.CryptoCodec.utf8, hdata]
    rw [signed, hbytes]
    rfl
  rw [send, Crypto.CryptoCodec.encrypt, hsealed]
  rfl

theorem send_cpp {c : CryptoCodec} (hiv : draws.iv.length = 12)
    (henc : c.cipher.evpEncrypt draws.iv plaintext (toInt plaintext.length) = .ok enc) :
    send reprOf ssl now draws plaintext type (.cpp c) = some (dumpsWith .compact (.obj (cppFields
      (envelopeOf ssl.base64Encode now draws type enc (signed c.signer ssl.base64Encode now draws type enc))))) := by
  have hcipher : c.cipher.encrypt draws.iv plaintext [] =
      { ciphertext := enc.1, iv := draws.iv, tag := enc.2, ok := true } := by
    simp only [AesGcmCipher.encrypt, if_true, hiv, ne_eq, not_true_eq_false, if_false, henc]
  have hsealed : c.encrypt ssl now draws plaintext type =
      .ok (envelopeOf ssl.base64Encode now draws type enc (signed c.signer ssl.base64Encode now draws type enc)) := by
    simp only [CryptoCodec.encrypt, hcipher, Bool.not_true, Bool.false_eq_true, if_false]
    rfl
  rw [send, hsealed]
  rfl

end Sender

section Receiver

variable {reprOf : Value → Str} {nl : Nlohmann} {ssl : OpenSsl} {limit : Nat} {now now₁ now₂ : Int} {draws : Draws}
  {type : MessageType} {plaintext : Bytes} {env : CryptoEnvelope} {m : Sealed} {text : Str}

theorem Genuine.ready (hbio : Bio ssl limit) (h : Genuine env now draws type m) (hiv : m.iv.length = 12)
    (htag : m.tag.length = 16) (hsize : m.ciphertext.length ≤ 1585834077) {g : ReplayGuard Str}
    (hwindow : g.isWithinWindow now₁ now = true) (hunseen : b64Encode draws.nonce ∉ g.nonces) :
    CppReady ssl g now₁ env m where
  inWindow := by
    rw [h.timestamp]
    exact hwindow
  unseen := by
    rw [h.nonce, ReplayGuard.isReplay_eq]
    exact decide_eq_false hunseen
  payload := h.payload
  signature := h.signature.cpp hbio (h.der.trans (by decide))
  ciphertext := h.ciphertext.cpp hbio hsize
  iv := h.iv.cpp hbio (by omega)
  tag := h.tag.cpp hbio (by omega)
  ivSize := hiv
  tagSize := htag

theorem Genuine.pyReady (h : Genuine env now draws type m) (hiv : m.iv.length = 12) (htag : m.tag.length = 16)
    {g : ReplayGuard Str} (hwindow : g.isWithinWindow now₁ now = true) (hunseen : b64Encode draws.nonce ∉ g.nonces) :
    PyReady reprOf g now₁ (embed env) m where
  inWindow := by
    rw [h.timestamp.symm] at hwindow
    exact within_int.mpr hwindow
  unseen := by
    refine seen_str.mpr ?_
    rw [h.nonce, ReplayGuard.isReplay_eq]
    exact decide_eq_false hunseen
  payload := by
    obtain ⟨data, hdata⟩ := Option.isSome_iff_exists.mp (scalar_iff.mpr h.scalar)
    have hpayload := h.payload
    rw [bytes, hdata, Option.getD_some] at hpayload
    exact ⟨_, buildSigningPayload_embed env, hpayload ▸ hdata⟩
  signature := b64Field_str.mpr h.signature.py
  ciphertext := b64Field_str.mpr h.ciphertext.py
  iv := b64Field_str.mpr h.iv.py
  tag := b64Field_str.mpr h.tag.py
  ivSize := hiv
  tagSize := htag

theorem decrypt_genuine {c : Crypto.CryptoCodec} (hjson : Crypto.CryptoEnvelope.fromJson text = .ok (embed env))
    (h : Genuine env now draws type m) (hready : PyReady reprOf c.guard now₁ (embed env) m)
    (hverify : c.verifier.verify m.payload m.signature = true)
    (hopen : c.cipher.aead.decrypt m.iv (m.ciphertext ++ m.tag) = .ok plaintext) : c.decrypt reprOf now₁ now₂ text =
      (.ok { plaintext := plaintext, ok := true },
        { c with guard := c.guard.recordNonce now₂ (b64Encode draws.nonce) }) := by
  have hvalidate : c.validate reprOf now₁ text = .ok (embed env, plaintext) :=
    validate_ok_iff.mpr ⟨hjson, m, hready, hverify, hopen⟩
  rw [Crypto.CryptoCodec.decrypt, hvalidate, ← h.nonce]
  rfl

theorem receive_py {c : Crypto.CryptoCodec} (hjson : Crypto.CryptoEnvelope.fromJson text = .ok (embed env))
    (h : Genuine env now draws type m) (hready : PyReady reprOf c.guard now₁ (embed env) m)
    (hverify : c.verifier.verify m.payload m.signature = true)
    (hopen : c.cipher.aead.decrypt m.iv (m.ciphertext ++ m.tag) = .ok plaintext) :
    receive reprOf nl ssl now₁ now₂ text (.py c) =
      some ⟨plaintext, type, c.guard.recordNonce now₂ (b64Encode draws.nonce)⟩ := by
  have htype : msgType (embed env).type = .ok type := by
    change MessageType.parse env.type = .ok type
    rw [h.type, MessageType.parse_value]
  simp only [receive, hjson, decrypt_genuine hjson h hready hverify hopen, htype, Except.toOption, Option.bind_eq_bind,
    Option.bind_some, if_true]

theorem decrypt_of_accepts {c : CryptoCodec} (now₂ : Int) (h : c.Accepts ssl now₁ env) : c.decrypt ssl now₁ now₂ env =
    ({ plaintext := (c.cipher.decrypt (ssl.base64Decode env.ciphertext) (ssl.base64Decode env.iv)
        (ssl.base64Decode env.tag)).plaintext, ok := true },
      { c with guard := ReplayGuard.recordNonce c.guard now₂ env.nonce }) := by
  simp [CryptoCodec.decrypt, h.inWindow, h.unseen, h.verified, h.authentic]

theorem receive_cpp {c : CryptoCodec} {data : Bytes} (hdata : encodeUtf8 text = some data)
    (hjson : CryptoCodec.fromJson nl data = .ok env) (h : Genuine env now draws type m)
    (hready : CppReady ssl c.guard now₁ env m) (hverify : c.verifier.verify m.payload m.signature = true)
    (hopen : c.cipher.evpDecrypt m.ciphertext (toInt m.ciphertext.length) m.iv m.tag = .ok plaintext) :
    receive reprOf nl ssl now₁ now₂ text (.cpp c) =
      some ⟨plaintext, type, ReplayGuard.recordNonce c.guard now₂ (b64Encode draws.nonce)⟩ := by
  obtain ⟨hok, hout⟩ := (cppDecrypt_ok_iff _ _ _ _).mpr ⟨hready.ivSize, hready.tagSize, hopen⟩
  rw [← hready.payload, ← hready.signature] at hverify
  rw [← hready.ciphertext, ← hready.iv, ← hready.tag] at hok hout
  have hdecrypt := decrypt_of_accepts now₂ ⟨hready.inWindow, hready.unseen, hverify, hok⟩
  have htype : parseMessageType env.type = .ok type := by rw [h.type, parseMessageType_value]
  simp only [receive, hdata, hjson, hdecrypt, htype, hout, h.nonce, Except.toOption, Option.bind_eq_bind,
    Option.bind_some, if_true]

inductive Written (env : CryptoEnvelope) : List (Str × Value) → Prop where
  | py : Written env (pyFields env)
  | cpp : Written env (cppFields env)

theorem Written.reads {fields : List (Str × Value)} (h : Written env fields) : Reads env fields := by
  cases h with
  | py => exact reads_pyFields env
  | cpp => exact reads_cppFields env

theorem Written.mem_pyFields {fields : List (Str × Value)} (h : Written env fields) : ∀ f ∈ fields, f ∈ pyFields env := by
  cases h with
  | py => exact fun _ hf => hf
  | cpp => simp [cppFields, pyFields]

theorem Written.ne_nil {fields : List (Str × Value)} (h : Written env fields) : fields ≠ [] := by
  cases h <;> exact List.cons_ne_nil _ _

theorem Genuine.wire (h : Genuine env now draws type m) (hnow : Int64 now) {fields : List (Str × Value)}
    (hwritten : Written env fields) : fields ≠ [] ∧ (∀ f ∈ fields, Scalar f.1) ∧ ∀ f ∈ fields, Wire f.2 := by
  have hmsgId : Wire (.str env.msgId) := .str (h.msgId ▸ scalar_generateUuid _)
  have htime : Wire (.int env.timestamp) := .int (h.timestamp ▸ hnow)
  have hnonce : Wire (.str env.nonce) := .str (h.nonce ▸ scalar_b64Encode _)
  have htype : Wire (.str env.type) := .str (h.type ▸ scalar_value _)
  have hiv : Wire (.str env.iv) := .str h.iv.scalar
  have hciphertext : Wire (.str env.ciphertext) := .str h.ciphertext.scalar
  have htag : Wire (.str env.tag) := .str h.tag.scalar
  have hsignature : Wire (.str env.signature) := .str h.signature.scalar
  have hfields : ∀ f ∈ pyFields env, Scalar f.1 ∧ Wire f.2 := by
    simp only [pyFields, List.forall_mem_cons]
    exact ⟨⟨scalar_str _, hmsgId⟩, ⟨scalar_str _, htime⟩, ⟨scalar_str _, hnonce⟩, ⟨scalar_str _, htype⟩,
      ⟨scalar_str _, hiv⟩, ⟨scalar_str _, hciphertext⟩, ⟨scalar_str _, htag⟩, ⟨scalar_str _, hsignature⟩, nofun⟩
  have hmem := hwritten.mem_pyFields
  exact ⟨hwritten.ne_nil, fun f hf => (hfields f (hmem f hf)).1, fun f hf => (hfields f (hmem f hf)).2⟩

theorem Genuine.fromJson (h : Genuine env now draws type m) (hnow : Int64 now) {fields : List (Str × Value)}
    (hwritten : Written env fields) :
    Crypto.CryptoEnvelope.fromJson (dumpsWith .compact (.obj fields)) = .ok (embed env) := by
  obtain ⟨hne, hkeys, hwire⟩ := h.wire hnow hwritten
  exact pyFromJson_ok_iff.mpr ⟨fields, (wire_text hne hkeys hwire).1, hwritten.reads.py⟩

theorem Genuine.fromJson_cpp (hjson : ReadsFlat nl) (h : Genuine env now draws type m) (hnow : Int64 now)
    {fields : List (Str × Value)} (hwritten : Written env fields) :
    ∃ data, encodeUtf8 (dumpsWith .compact (.obj fields)) = some data ∧ CryptoCodec.fromJson nl data = .ok env := by
  obtain ⟨hne, hkeys, hwire⟩ := h.wire hnow hwritten
  obtain ⟨hloads, data, hdata⟩ := wire_text hne hkeys hwire
  obtain ⟨fields', hparse, hlook⟩ := hjson.reads hdata hloads hkeys hwire
  obtain ⟨htyped, hfields⟩ := (hwritten.reads.congr hlook).cpp (h.timestamp ▸ hnow)
  exact ⟨data, hdata, CryptoCodec.fromJson_ok_iff.mpr ⟨fields', hparse, htyped, hfields⟩⟩

theorem sizes_encrypted {gcm : AesGcm} {iv : Bytes} (henc : gcm.encrypted iv plaintext = (m.ciphertext, m.tag)) :
    m.ciphertext.length = plaintext.length ∧ m.tag.length = 16 := by
  have hsize := gcm.size iv plaintext
  have htag := gcm.tagSize iv plaintext
  rw [henc] at hsize htag
  exact ⟨hsize, htag⟩

theorem Opens.py {gcm : AesGcm} {c : Crypto.CryptoCodec} (hopens : Opens gcm (.py c)) (hiv : m.iv.length = 12)
    (henc : gcm.encrypted m.iv plaintext = (m.ciphertext, m.tag)) (hsize : plaintext.length < 2147483648) :
    c.cipher.aead.decrypt m.iv (m.ciphertext ++ m.tag) = .ok plaintext := by
  have hopen := hopens m.iv plaintext hiv hsize
  rwa [henc] at hopen

theorem Opens.cpp {gcm : AesGcm} {c : CryptoCodec} (hopens : Opens gcm (.cpp c)) (hiv : m.iv.length = 12)
    (henc : gcm.encrypted m.iv plaintext = (m.ciphertext, m.tag)) (hsize : plaintext.length < 2147483648) :
    c.cipher.evpDecrypt m.ciphertext (toInt m.ciphertext.length) m.iv m.tag = .ok plaintext := by
  have hopen := hopens m.iv plaintext hiv hsize
  rw [henc, ← (sizes_encrypted henc).1] at hopen
  rwa [Base64Text.toInt_eq ((sizes_encrypted henc).1.trans_lt hsize)]

theorem receive_written {gcm : AesGcm} {receiver : Party} (hopens : Opens gcm receiver) (hbio : Bio ssl limit)
    (hjson : ReadsFlat nl) (h : Genuine env now draws type m) (hnow : Int64 now) {fields : List (Str × Value)}
    (hwritten : Written env fields) (hiv : m.iv.length = 12)
    (henc : gcm.encrypted m.iv plaintext = (m.ciphertext, m.tag)) (hfits : Fits receiver plaintext)
    (hverify : receiver.verifier.verify m.payload m.signature = true)
    (hwindow : receiver.guard.isWithinWindow now₁ now = true)
    (hunseen : b64Encode draws.nonce ∉ receiver.guard.nonces) :
    ∃ out, receive reprOf nl ssl now₁ now₂ (dumpsWith .compact (.obj fields)) receiver = some out ∧
      out.plaintext = plaintext ∧ out.type = type ∧ b64Encode draws.nonce ∈ out.guard.nonces := by
  obtain ⟨hsize, htag⟩ := sizes_encrypted henc
  cases receiver with
  | py c =>
      exact ⟨_, receive_py (h.fromJson hnow hwritten) h (h.pyReady hiv htag hwindow hunseen) hverify
        (hopens.py hiv henc hfits), rfl, rfl, ReplayGuard.mem_recordNonce.mpr (.inl rfl)⟩
  | cpp c =>
      obtain ⟨data, hdata, henv⟩ := h.fromJson_cpp hjson hnow hwritten
      have hready := h.ready hbio hiv htag (hsize.trans_le hfits) hwindow hunseen
      have hshort : plaintext.length < 2147483648 := lt_of_le_of_lt hfits (by decide)
      exact ⟨_, receive_cpp hdata henv h hready hverify (hopens.cpp hiv henc hshort), rfl, rfl,
        (AList.mem_insert _).mpr (.inl rfl)⟩

theorem receive_long {c : CryptoCodec} (hmeasures : Measures (.cpp c)) (hjson : ReadsFlat nl)
    (h : Genuine env now draws type m) (hnow : Int64 now) {fields : List (Str × Value)} (hwritten : Written env fields)
    (hlong : 1585834077 < m.ciphertext.length) (hsize : m.ciphertext.length < 2147483648) {out : Received}
    (hout : receive reprOf nl ssl now₁ now₂ (dumpsWith .compact (.obj fields)) (.cpp c) = some out) : out.plaintext = [] := by
  obtain ⟨data, hdata, henv⟩ := h.fromJson_cpp hjson hnow hwritten
  simp only [receive, hdata, henv, Except.toOption, Option.bind_eq_bind, Option.bind_some, Option.bind_eq_some_iff,
    Option.ite_none_right_eq_some, Option.some.injEq] at hout
  obtain ⟨type', -, hok, rfl⟩ := hout
  have hcipher := ((CryptoCodec.decrypt_ok_iff ssl c).mp hok).authentic
  have hplain := decrypt_plaintext hok
  rw [h.ciphertext.cpp_long hlong hsize] at hcipher hplain
  obtain ⟨-, -, hopen⟩ := (cppDecrypt_ok_iff _ _ _ _).mp ⟨hcipher, hplain.symm⟩
  have hlength := hmeasures _ _ _ _ _ hopen
  exact List.length_eq_zero_iff.mp (Int.natCast_eq_zero.mp hlength)

end Receiver

section Send

variable {ssl : OpenSsl} {limit : Nat} {draws : Draws} {plaintext part : Bytes} {gcm : AesGcm} {sender : Party}

theorem send_written (reprOf : Value → Str) (now : Int) (type : MessageType) (hseals : Seals gcm sender)
    (hder : Der sender.signer) (hbio : Bio ssl limit) (hdraws : Drawn draws)
    (hpart : sealedPart sender plaintext = some part) (hheld : Held limit sender part) :
    ∃ env m fields, send reprOf ssl now draws plaintext type sender = some (dumpsWith .compact (.obj fields)) ∧
      Written env fields ∧ Genuine env now draws type m ∧ m.iv = draws.iv ∧
      gcm.encrypted draws.iv part = (m.ciphertext, m.tag) ∧
      m.signature = sender.signer.sign draws.entropy m.payload := by
  have hlength := length_sealedPart hpart
  have hsize := gcm.size draws.iv part
  have htag := gcm.tagSize draws.iv part
  cases sender with
  | py c =>
      simp only [sealedPart, Option.ite_none_right_eq_some, Option.some.injEq] at hpart
      obtain ⟨hshort, rfl⟩ := hpart
      have henc := hseals draws.iv plaintext hdraws.ivSize hshort
      obtain ⟨m, hgenuine, hm⟩ := genuine_signed hder now type hdraws (by decide : 1024 ≤ 2147483648)
        (fun data _ => Coded.lines data) (hsize.trans_lt hlength) htag
      exact ⟨_, m, _, send_py hdraws.ivSize htag henc, .py, hgenuine, hm⟩
  | cpp c =>
      simp only [sealedPart, Option.ite_none_left_eq_some, Option.some.injEq, not_lt] at hpart
      obtain ⟨hnonneg, rfl⟩ := hpart
      obtain ⟨inl, hinl⟩ := Int.eq_ofNat_of_zero_le hnonneg
      have hlt := Base64Text.toInt_lt plaintext.length
      have hle := Base64Text.toInt_le plaintext.length
      rw [hinl, Int.toNat_natCast] at hlt hle hsize htag hheld ⊢
      have henc := hseals draws.iv plaintext inl hdraws.ivSize hlt hle
      rw [← hinl] at henc
      obtain ⟨m, hgenuine, hm⟩ := genuine_signed hder now type hdraws hbio.atLeast (fun data h => coded_bio hbio h)
        (hsize.trans_lt hheld) htag
      exact ⟨_, m, _, send_cpp hdraws.ivSize henc, .cpp, hgenuine, hm⟩

theorem send_refused (reprOf : Value → Str) (ssl : OpenSsl) (now : Int) (type : MessageType) (hrefuses : Refuses sender)
    (hdraws : Drawn draws) (hpart : sealedPart sender plaintext = none) :
    send reprOf ssl now draws plaintext type sender = none := by
  cases sender with
  | py c =>
      simp only [sealedPart, ite_eq_right_iff, reduceCtorEq, imp_false, not_lt] at hpart
      obtain ⟨e, he⟩ := hrefuses draws.iv plaintext hpart
      have hcipher : (c.cipher.encrypt draws.iv plaintext none).ok = false := by
        simp only [Crypto.AesGcmCipher.encrypt, hdraws.ivSize, ivSize, ne_eq, not_true_eq_false, if_false, he]
      simp only [send, Crypto.CryptoCodec.encrypt, Crypto.CryptoCodec.sealEnvelope, hcipher, Bool.not_false, if_true]
      rfl
  | cpp c =>
      simp only [sealedPart, ite_eq_left_iff, reduceCtorEq, imp_false, not_not] at hpart
      obtain ⟨e, he⟩ := hrefuses draws.iv plaintext _ hpart
      have hcipher : (c.cipher.encrypt draws.iv plaintext []).ok = false := by
        simp only [AesGcmCipher.encrypt, if_true, hdraws.ivSize, ne_eq, not_true_eq_false, if_false, he]
      simp only [send, CryptoCodec.encrypt, hcipher, Bool.not_false, if_true]
      rfl

end Send

theorem decrypt_own {reprOf : Value → Str} {gcm : AesGcm} {c : Crypto.CryptoCodec} (hopens : Opens gcm (.py c))
    (hsigns : Signs c.signer c.verifier) {draws : Draws} (hdraws : Drawn draws) {now now₁ now₂ : Int} (hnow : Int64 now)
    (hwindow : c.guard.isWithinWindow now₁ now = true) (hunseen : b64Encode draws.nonce ∉ c.guard.nonces)
    {plaintext : Bytes} (hsize : plaintext.length < 2147483648) (type : MessageType) :
    c.decrypt reprOf now₁ now₂ (dumpsWith .compact (.obj (pyFields (envelopeOf b64Encode now draws type
        (gcm.encrypted draws.iv plaintext)
        (signed c.signer b64Encode now draws type (gcm.encrypted draws.iv plaintext)))))) =
      (.ok { plaintext := plaintext, ok := true },
        { c with guard := c.guard.recordNonce now₂ (b64Encode draws.nonce) }) := by
  obtain ⟨m, hgenuine, hiv, henc, hsignature⟩ := genuine_signed hsigns.der now type hdraws (by decide : 1024 ≤ 2147483648)
    (fun data _ => Coded.lines data) ((gcm.size draws.iv plaintext).trans_lt hsize) (gcm.tagSize draws.iv plaintext)
  have hsizes := sizes_encrypted henc
  rw [← hiv] at henc
  have hready : PyReady reprOf c.guard now₁ (embed _) m := hgenuine.pyReady (hiv ▸ hdraws.ivSize) hsizes.2 hwindow hunseen
  exact decrypt_genuine (hgenuine.fromJson hnow .py) hgenuine hready (hsignature ▸ hsigns.verifies _ _)
    (hopens.py (hiv ▸ hdraws.ivSize) henc hsize)

section Main

variable {reprOf : Value → Str} {nl : Nlohmann} {ssl : OpenSsl} {gcm : AesGcm} {sender receiver : Party} {draws : Draws}
  {now now₁ now₂ : Int}

theorem round_trip_iff (hseals : Seals gcm sender) (hrefuses : Refuses sender) (hopens : Opens gcm receiver)
    (hmeasures : Measures receiver) (hsigns : Signs sender.signer receiver.verifier) (hbio : Bio ssl 2147483648)
    (hjson : ReadsFlat nl) (hdraws : Drawn draws) (hnow : Int64 now)
    (hwindow : receiver.guard.isWithinWindow now₁ now = true) (hunseen : b64Encode draws.nonce ∉ receiver.guard.nonces)
    (plaintext : Bytes) (type : MessageType) :
    RoundTrip reprOf nl ssl sender receiver now now₁ now₂ draws plaintext type ↔ Fits receiver plaintext := by
  constructor
  · rintro ⟨text, out, hsend, hreceive, hplain, -⟩
    cases hpart : sealedPart sender plaintext with
    | none =>
        rw [send_refused reprOf ssl now type hrefuses hdraws hpart] at hsend
        cases hsend
    | some part =>
        have hlength := length_sealedPart hpart
        obtain ⟨env, m, fields, hsent, hwritten, hgenuine, hiv, henc, hsignature⟩ :=
          send_written reprOf now type hseals hsigns.der hbio hdraws hpart (held_all hlength sender)
        obtain ⟨hsize, -⟩ := sizes_encrypted henc
        cases Option.some.inj (hsend.symm.trans hsent)
        by_cases hfits : Fits receiver part
        · have hverify : receiver.verifier.verify m.payload m.signature = true := hsignature ▸ hsigns.verifies _ _
          obtain ⟨out', hout', hplain', -⟩ := receive_written hopens hbio hjson hgenuine hnow hwritten
            (hiv ▸ hdraws.ivSize) (hiv ▸ henc) hfits hverify hwindow hunseen
          cases Option.some.inj (hreceive.symm.trans hout')
          rwa [← hplain, hplain']
        · cases receiver with
          | py c => exact absurd hlength hfits
          | cpp c =>
              have hlong : 1585834077 < m.ciphertext.length := hsize ▸ not_le.mp hfits
              have hnil := receive_long hmeasures hjson hgenuine hnow hwritten hlong (hsize ▸ hlength) hreceive
              rw [← hplain, hnil]
              exact Nat.zero_le _
  · intro hfits
    have hlength := fits_short hfits
    obtain ⟨env, m, fields, hsent, hwritten, hgenuine, hiv, henc, hsignature⟩ :=
      send_written reprOf now type hseals hsigns.der hbio hdraws (sealedPart_short hlength sender) (held_all hlength sender)
    have hverify : receiver.verifier.verify m.payload m.signature = true := hsignature ▸ hsigns.verifies _ _
    obtain ⟨out, hreceive⟩ := receive_written hopens hbio hjson hgenuine hnow hwritten (hiv ▸ hdraws.ivSize) (hiv ▸ henc)
      hfits hverify hwindow hunseen
    exact ⟨_, out, hsent, hreceive⟩

end Main

def sampleTag : Bytes := List.replicate 16 0

def sampleGcm : AesGcm where
  encrypted _ plaintext := (plaintext, sampleTag)
  size _ _ := rfl
  tagSize _ _ := List.length_replicate

def sampleDigest (data : Bytes) : Bytes := [data.foldl (fun hash byte => 31 * hash + byte) 7]

def samplePublic : PublicKey := ⟨fun signature data => decide (signature = sampleDigest data)⟩

def samplePrivate : PrivateKey := ⟨fun _ data => sampleDigest data, samplePublic⟩

def samplePy : Crypto.CryptoCodec where
  cipher :=
    { key := List.replicate 32 0
      aead :=
        { encrypt := fun _ plaintext =>
            if plaintext.length < 2147483648 then .ok (plaintext ++ sampleTag)
            else .error (str "Data or associated data too long. Max 2**31 - 1 bytes")
          decrypt := fun _ ctWithTag =>
            if ctWithTag.drop (ctWithTag.length - 16) = sampleTag then .ok (ctWithTag.take (ctWithTag.length - 16))
            else .error [] }
      key_size := zeroKey_size }
  signer := ⟨some samplePrivate, none⟩
  verifier := ⟨none, some samplePublic⟩
  guard := sampleGuard

def sampleCpp : CryptoCodec where
  cipher :=
    { evpEncrypt := fun _ plaintext inl =>
        if inl < 0 then .error (str "EVP_EncryptUpdate failed") else .ok (plaintext.take inl.toNat, sampleTag)
      evpDecrypt := fun ciphertext inl _ tag =>
        if inl < 0 ∨ (ciphertext.length : Int) < inl then .error (str "EVP_DecryptUpdate failed")
        else if tag = sampleTag then .ok (ciphertext.take inl.toNat)
        else .error (str "AES-GCM authentication tag verification failed") }
  signer := ⟨some samplePrivate, none⟩
  verifier := ⟨none, some samplePublic⟩
  guard := sampleGuard

theorem sample_seals : Seals sampleGcm (.py samplePy) ∧ Seals sampleGcm (.cpp sampleCpp) := by
  refine ⟨fun iv plaintext _ hsize => if_pos hsize, fun iv plaintext inl _ _ _ => ?_⟩
  have hnonneg : ¬(inl : Int) < 0 := by omega
  simp only [sampleCpp, hnonneg, if_false, Int.toNat_natCast]
  rfl

theorem sample_refuses : Refuses (.py samplePy) ∧ Refuses (.cpp sampleCpp) :=
  ⟨fun _ _ hsize => ⟨_, if_neg (not_lt.mpr hsize)⟩, fun _ _ _ hneg => ⟨_, if_pos hneg⟩⟩

theorem sample_opens : Opens sampleGcm (.py samplePy) ∧ Opens sampleGcm (.cpp sampleCpp) := by
  constructor
  · intro iv plaintext _ _
    have htag : sampleTag.length = 16 := List.length_replicate
    simp [samplePy, sampleGcm, htag]
  · intro iv plaintext _ _
    simp [sampleCpp, sampleGcm]

theorem sample_measures : Measures (.py samplePy) ∧ Measures (.cpp sampleCpp) := by
  refine ⟨trivial, fun ciphertext inl iv tag plaintext h => ?_⟩
  simp only [sampleCpp] at h
  split_ifs at h with hrange
  cases h
  rw [List.length_take]
  omega

theorem sample_signs : Signs samplePy.signer samplePy.verifier :=
  ⟨fun _ _ => decide_eq_true rfl, fun _ _ => (by decide : 1 ≤ 72)⟩

theorem sample_bio : Bio sampleSsl 2147483648 where
  write _ _ := rfl
  read data _ := by
    obtain ⟨b, hb⟩ := Option.isSome_iff_exists.mp (scalar_iff.mpr (scalar_b64Encode data))
    change ((sampleDecode (bytes (b64Encode data))).bind b64Decode).getD [] = data
    rw [sampleDecode_eq, bytes, hb, Option.getD_some, decode_encode hb, Option.bind_some, b64Decode_b64Encode, Option.getD_some]
  atLeast := by decide
  atMost := le_refl _

theorem sample_readsFlat : ReadsFlat sampleNl where
  reads := by
    intro text data fields hdata hloads _ hwire
    refine ⟨fields, ?_, fun _ => rfl⟩
    rw [sampleNl_parse, sampleParse_obj, decode_encode hdata, Option.bind_some]
    refine ⟨hloads, List.all_eq_true.mpr fun f hf => ?_⟩
    cases hvalue : f.2 with
    | str s =>
        have hwired := hwire f hf
        rw [hvalue] at hwired
        cases hwired with
        | str hs => exact scalar_iff.mpr hs
    | _ => rfl

def sampleDraws : Draws := ⟨List.replicate 16 1, List.replicate 16 2, List.replicate 12 3, []⟩

theorem sample_drawn : Drawn sampleDraws := ⟨List.length_replicate, List.length_replicate, List.length_replicate⟩

def SampleTrip (sender receiver : Party) (plaintext : Bytes) : Prop :=
  RoundTrip (fun _ => []) sampleNl sampleSsl sender receiver 1700000000000 1700000000500 1700000000500 sampleDraws plaintext
    .ack

theorem round_trip_samples :
    (SampleTrip (.py samplePy) (.py samplePy) [7, 255] ↔ Fits (.py samplePy) [7, 255]) ∧
      (SampleTrip (.py samplePy) (.cpp sampleCpp) [] ↔ Fits (.cpp sampleCpp) []) ∧
      (SampleTrip (.cpp sampleCpp) (.py samplePy) [7, 255] ↔ Fits (.py samplePy) [7, 255]) ∧
      (SampleTrip (.cpp sampleCpp) (.cpp sampleCpp) (List.replicate 2147483648 0) ↔
        Fits (.cpp sampleCpp) (List.replicate 2147483648 0)) := by
  have hnow : Int64 1700000000000 := by unfold Int64; omega
  have hwindow : sampleGuard.isWithinWindow 1700000000500 1700000000000 = true := by decide
  have hunseen : b64Encode sampleDraws.nonce ∉ sampleGuard.nonces := by decide
  exact ⟨round_trip_iff sample_seals.1 sample_refuses.1 sample_opens.1 sample_measures.1 sample_signs sample_bio
      sample_readsFlat sample_drawn hnow hwindow hunseen _ .ack,
    round_trip_iff sample_seals.1 sample_refuses.1 sample_opens.2 sample_measures.2 sample_signs sample_bio
      sample_readsFlat sample_drawn hnow hwindow hunseen _ .ack,
    round_trip_iff sample_seals.2 sample_refuses.2 sample_opens.1 sample_measures.1 sample_signs sample_bio
      sample_readsFlat sample_drawn hnow hwindow hunseen _ .ack,
    round_trip_iff sample_seals.2 sample_refuses.2 sample_opens.2 sample_measures.2 sample_signs sample_bio
      sample_readsFlat sample_drawn hnow hwindow hunseen _ .ack⟩

theorem not_sampleTrip_huge : ¬SampleTrip (.cpp sampleCpp) (.cpp sampleCpp) (List.replicate 2147483648 0) ∧
    ¬SampleTrip (.py samplePy) (.cpp sampleCpp) (List.replicate 2147483648 0) := by
  have hint : toInt (List.replicate 2147483648 (0 : UInt8)).length < 0 := by
    rw [List.length_replicate]
    decide
  have hlength : ¬(List.replicate 2147483648 (0 : UInt8)).length < 2147483648 := by
    rw [List.length_replicate]
    decide
  constructor
  · rintro ⟨text, out, hsend, -⟩
    rw [send_refused _ _ _ _ sample_refuses.2 sample_drawn (if_pos hint)] at hsend
    cases hsend
  · rintro ⟨text, out, hsend, -⟩
    rw [send_refused _ _ _ _ sample_refuses.1 sample_drawn (if_neg hlength)] at hsend
    cases hsend

end Agent.Transit
