import JdRelay.Agent.HexKey
import JdRelay.Agent.Transit
import JdRelay.Base.Nested

namespace Agent.Tools
open Text Json Crypto Interop Transit

section CommandLine

inductive Flag where
  | ecdsaKey
  | peerPub
  | aesKey
  | type
  deriving DecidableEq

def Flag.spelling : Flag → Bytes
  | .ecdsaKey => bytes (str "--ecdsa-key")
  | .peerPub => bytes (str "--peer-pub")
  | .aesKey => bytes (str "--aes-key")
  | .type => bytes (str "--type")

def flagOf (flags : List Flag) (arg : Bytes) : Option Flag := flags.find? (·.spelling = arg)

-- decryptor.cpp knows the first three only.
def encryptorFlags : List Flag := [.ecdsaKey, .peerPub, .aesKey, .type]

def decryptorFlags : List Flag := [.ecdsaKey, .peerPub, .aesKey]

structure Options where
  ecdsaKey : Bytes := []
  peerPub : Bytes := []
  aesKey : Bytes := []
  typeStr : Bytes := bytes (str "HEARTBEAT")
  deriving DecidableEq

def Options.set (o : Options) (value : Bytes) : Flag → Options
  | .ecdsaKey => { o with ecdsaKey := value }
  | .peerPub => { o with peerPub := value }
  | .aesKey => { o with aesKey := value }
  | .type => { o with typeStr := value }

def isHelp (arg : Bytes) : Bool := arg = bytes (str "--help") || arg = bytes (str "-h")

-- The loop over argv from index 1, none where it prints the usage. A flag without a value and any other word are passed over.
def parseArguments (flags : List Flag) : Options → List Bytes → Option Options
  | o, [] => some o
  | o, [arg] => if isHelp arg then none else some o
  | o, arg :: value :: rest =>
      match flagOf flags arg with
      | some flag => parseArguments flags (o.set value flag) rest
      | none => if isHelp arg then none else parseArguments flags o (value :: rest)

abbrev Environment := String → Option Bytes

def orElse (value : Bytes) (env : Option Bytes) : Bytes := if value = [] then env.getD [] else value

def Options.fallBack (o : Options) (getenv : Environment) : Options :=
  { o with
    ecdsaKey := orElse o.ecdsaKey (getenv "RELAY_ECDSA_PRIVATE_KEY")
    peerPub := orElse o.peerPub (getenv "RELAY_PEER_ECDSA_PUBLIC")
    aesKey := orElse o.aesKey (getenv "RELAY_AES_KEY") }

def Options.missing (o : Options) : Bool := o.ecdsaKey = [] || o.peerPub = [] || o.aesKey = []

-- How a run of a tool ends: the code is 0 for usage and output, 1 for the others.
inductive Exit where
  | usage
  | missing
  | error (e : Exn)
  | decryptFailed (error : Str)
  | output (stdout : Bytes)
  deriving DecidableEq

def run (flags : List Flag) (getenv : Environment) (argv : List Bytes) (main : Options → Exit) : Exit :=
  match parseArguments flags {} argv with
  | none => .usage
  | some o => if (o.fallBack getenv).missing then .missing else main (o.fallBack getenv)

end CommandLine

-- The two PEM files are named by their paths; an error is what the constructor throws.
structure World where
  nl : Nlohmann
  ssl : OpenSsl
  privateKey : Bytes → Except Exn EcdsaSigner
  publicKey : Bytes → Except Exn EcdsaSigner
  evp : Bytes → AesGcmCipher

section Keys

structure KeyManager where
  aesKey : Bytes
  signer : EcdsaSigner
  verifier : EcdsaSigner
  size : aesKey.length = 32

def keyNotProvided : Str :=
  str "AES key not provided. Set aes_key_hex parameter or RELAY_AES_KEY environment variable."

def keySizeError (length : Nat) : Str :=
  str "AES key must be 32 bytes (64 hex chars), got " ++ Number.natStr length ++ str " bytes"

def keyHex (getenv : Environment) (aesKeyHex : Bytes) : Except Exn Bytes :=
  if aesKeyHex ≠ [] then .ok aesKeyHex
  else
    match getenv "RELAY_AES_KEY" with
    | some hex => .ok hex
    | none => .error (.runtimeError keyNotProvided)

def KeyManager.load (w : World) (getenv : Environment) (ecdsaPrivatePem peerEcdsaPublicPem aesKeyHex : Bytes) :
    Except Exn KeyManager := do
  let signer ← w.privateKey ecdsaPrivatePem
  let verifier ← w.publicKey peerEcdsaPublicPem
  let hex ← keyHex getenv aesKeyHex
  if h : (HexKey.hexDecode hex).length = 32 then .ok ⟨HexKey.hexDecode hex, signer, verifier, h⟩
  else .error (.runtimeError (keySizeError (HexKey.hexDecode hex).length))

theorem readPairs_hexEncode (key : Bytes) : HexKey.readPairs (hexEncode key) = key := by
  induction key with
  | nil => rfl
  | cons b key ih =>
      have hb := b.toNat_lt
      have hhi := hexDigit_digitChar (b.toNat / 16) (by omega)
      have hlo := hexDigit_digitChar (b.toNat % 16) (by omega)
      change HexKey.readPairs (ofChar _ :: ofChar _ :: hexEncode key) = _
      rw [HexKey.readPairs, hhi, hlo, ih]
      change UInt8.ofNat (16 * (b.toNat / 16) + b.toNat % 16) :: key = _
      rw [Nat.div_add_mod, UInt8.ofNat_toNat]

theorem hexDecode_hexEncode (key : Bytes) : HexKey.hexDecode (bytes (hexEncode key)) = key := by
  let digits : List Char := key.flatMap fun b => [Nat.digitChar (b.toNat / 16), Nat.digitChar (b.toNat % 16)]
  have hdigits : digits.map ofChar = hexEncode key := by
    rw [hexEncode, List.map_flatMap]
    rfl
  have hbytes : bytes (hexEncode key) = digits.flatMap String.utf8EncodeChar := by
    rw [bytes, encodeUtf8, mapM_toChar?.mpr hdigits]
    rfl
  rw [hbytes, HexKey.hexDecode_utf8, hdigits, readPairs_hexEncode]

end Keys

section Main

variable (w : World)

def codec (key : Bytes) (signer verifier : EcdsaSigner) : CryptoCodec := ⟨w.evp key, signer, verifier, .fresh 300⟩

def messageType (typeStr : Bytes) : Except Exn MessageType := parseMessageType ((decodeUtf8 typeStr).getD [])

def sealStdin (getenv : Environment) (o : Options) (stdin : Bytes) (now : Int) (draws : Draws) : Except Exn Bytes := do
  let km ← KeyManager.load w getenv o.ecdsaKey o.peerPub o.aesKey
  let signer ← w.privateKey o.ecdsaKey
  let verifier ← w.publicKey o.peerPub
  let type ← messageType o.typeStr
  let envelope ← (codec w km.aesKey signer verifier).encrypt w.ssl now draws stdin type
  .ok (bytes (CryptoCodec.toJson envelope))

def encryptor (getenv : Environment) (argv : List Bytes) (stdin : Bytes) (now : Int) (draws : Draws) : Exit :=
  run encryptorFlags getenv argv fun o =>
    match sealStdin w getenv o stdin now draws with
    | .error e => .error e
    | .ok json => .output (json ++ bytes (str "\n"))

def openStdin (o : Options) (stdin : Bytes) (now₁ now₂ : Int) : Except Exn DecryptResult := do
  let key ← HexKey.aesGcmCipher o.aesKey
  let signer ← w.privateKey o.ecdsaKey
  let verifier ← w.publicKey o.peerPub
  let envelope ← CryptoCodec.fromJson w.nl stdin
  .ok ((codec w key signer verifier).decrypt w.ssl now₁ now₂ envelope).1

def decryptor (getenv : Environment) (argv : List Bytes) (stdin : Bytes) (now₁ now₂ : Int) : Exit :=
  run decryptorFlags getenv argv fun o =>
    match openStdin w o stdin now₁ now₂ with
    | .error e => .error e
    | .ok result => if result.ok then .output result.plaintext else .decryptFailed result.error

end Main

section Arguments

variable {flags : List Flag} {getenv : Environment}

def rendered (pairs : List (Flag × Bytes)) : List Bytes := pairs.flatMap fun p => [p.1.spelling, p.2]

theorem flagOf_spelling {flag : Flag} (h : flag ∈ flags) : flagOf flags flag.spelling = some flag := by
  have hinj : ∀ f g : Flag, f.spelling = g.spelling → f = g := by
    intro f g
    cases f <;> cases g <;> decide
  induction flags with
  | nil => cases h
  | cons f flags ih =>
      by_cases hf : f.spelling = flag.spelling
      · rw [flagOf, List.find?_cons, hf, decide_eq_true rfl, hinj f flag hf]
      · rw [flagOf, List.find?_cons, decide_eq_false hf]
        exact ih ((List.mem_cons.mp h).resolve_left fun heq => hf (congrArg Flag.spelling heq.symm))

theorem parseArguments_rendered {pairs : List (Flag × Bytes)} (h : ∀ p ∈ pairs, p.1 ∈ flags) (o : Options) :
    parseArguments flags o (rendered pairs) = some (pairs.foldl (fun o p => o.set p.2 p.1) o) := by
  induction pairs generalizing o with
  | nil => rfl
  | cons p pairs ih =>
      obtain ⟨hp, hpairs⟩ := List.forall_mem_cons.mp h
      change parseArguments flags o (p.1.spelling :: p.2 :: rendered pairs) = _
      rw [parseArguments, flagOf_spelling hp]
      exact ih hpairs _

structure Given (flags : List Flag) (getenv : Environment) (argv : List Bytes) (o : Options) : Prop where
  parsed : (parseArguments flags {} argv).map (·.fallBack getenv) = some o
  complete : o.missing = false

theorem Given.run {argv : List Bytes} {o : Options} (h : Given flags getenv argv o) (main : Options → Exit) :
    Tools.run flags getenv argv main = main o := by
  obtain ⟨p, hp, rfl⟩ := Option.map_eq_some_iff.mp h.parsed
  rw [Tools.run, hp]
  exact if_neg (by simp [h.complete])

end Arguments

section Pipeline

structure Keys (w : World) (o : Options) where
  signer : EcdsaSigner
  verifier : EcdsaSigner
  key : Bytes
  loadsSigner : w.privateKey o.ecdsaKey = .ok signer
  loadsVerifier : w.publicKey o.peerPub = .ok verifier
  loadsKey : HexKey.hexDecode o.aesKey = key
  size : key.length = 32

structure Lawful (w : World) (gcm : Bytes → AesGcm) (limit : Nat) : Prop where
  bio : Bio w.ssl limit
  json : ReadsFlat w.nl
  seals : ∀ key signer verifier, key.length = 32 → Seals (gcm key) (.cpp (codec w key signer verifier))
  opens : ∀ key signer verifier, key.length = 32 → Opens (gcm key) (.cpp (codec w key signer verifier))

variable {w : World} {o : Options} {getenv : Environment} {ssl : OpenSsl} {now now₁ now₂ : Int} {draws : Draws}
  {plaintext : Bytes} {type : MessageType} {env : CryptoEnvelope} {m : Sealed}

theorem encrypt_of_send {reprOf : Value → Str} {c : CryptoCodec} {json : Str}
    (h : send reprOf ssl now draws plaintext type (.cpp c) = some json) :
    ∃ env, c.encrypt ssl now draws plaintext type = .ok env ∧ CryptoCodec.toJson env = json := by
  rw [send] at h
  cases hc : c.encrypt ssl now draws plaintext type with
  | error e =>
      rw [hc] at h
      cases h
  | ok env =>
      rw [hc] at h
      exact ⟨env, rfl, Option.some.inj h⟩

theorem decrypt_genuine_cpp {c : CryptoCodec}
    (hready : CppReady ssl c.guard now₁ env m) (hverify : c.verifier.verify m.payload m.signature = true)
    (hopen : c.cipher.evpDecrypt m.ciphertext (Base64Text.toInt m.ciphertext.length) m.iv m.tag = .ok plaintext) :
    (c.decrypt ssl now₁ now₂ env).1 = { plaintext := plaintext, ok := true } := by
  obtain ⟨hok, hout⟩ := (cppDecrypt_ok_iff _ _ _ _).mpr ⟨hready.ivSize, hready.tagSize, hopen⟩
  rw [← hready.payload, ← hready.signature] at hverify
  rw [← hready.ciphertext, ← hready.iv, ← hready.tag] at hok hout
  rw [decrypt_of_accepts now₂ ⟨hready.inWindow, hready.unseen, hverify, hok⟩, hout]

theorem decrypt_late {c : CryptoCodec} (h : ReplayGuard.isWithinWindow c.guard now₁ env.timestamp = false) :
    (c.decrypt ssl now₁ now₂ env).1 =
      { error := CryptoCodec.noted (str "Timestamp outside acceptable window") env.msgId } := by
  simp [CryptoCodec.decrypt, h]

theorem sealStdin_eq (k : Keys w o) (hkey : o.missing = false) (htype : messageType o.typeStr = .ok type)
    (stdin : Bytes) (henv : (codec w k.key k.signer k.verifier).encrypt w.ssl now draws stdin type = .ok env) :
    sealStdin w getenv o stdin now draws = .ok (bytes (CryptoCodec.toJson env)) := by
  have hhex : keyHex getenv o.aesKey = .ok o.aesKey := if_pos (by simp_all [Options.missing])
  have hload : KeyManager.load w getenv o.ecdsaKey o.peerPub o.aesKey = .ok ⟨k.key, k.signer, k.verifier, k.size⟩ := by
    simp only [KeyManager.load, k.loadsSigner, k.loadsVerifier, hhex, bind, Except.bind, k.loadsKey]
    exact dif_pos k.size
  simp only [sealStdin, hload, k.loadsSigner, k.loadsVerifier, htype, henv, bind, Except.bind]

theorem openStdin_eq (k : Keys w o) {stdin : Bytes} (henv : CryptoCodec.fromJson w.nl stdin = .ok env) :
    openStdin w o stdin now₁ now₂ =
      .ok ((codec w k.key k.signer k.verifier).decrypt w.ssl now₁ now₂ env).1 := by
  have haes : HexKey.aesGcmCipher o.aesKey = .ok k.key := by
    rw [HexKey.aesGcmCipher, k.loadsKey]
    exact if_neg (not_not.mpr k.size)
  simp only [openStdin, haes, k.loadsSigner, k.loadsVerifier, henv, bind, Except.bind]

theorem encode_bytes {s : Str} (hs : Scalar s) : encodeUtf8 s = some (bytes s) := by
  obtain ⟨data, hdata⟩ := Option.isSome_iff_exists.mp (scalar_iff.mpr hs)
  rw [bytes, hdata, Option.getD_some]

theorem messageType_value (type : MessageType) : messageType (bytes type.value) = .ok type := by
  rw [messageType, decode_encode (encode_bytes (scalar_value type))]
  exact parseMessageType_value type

theorem fromJson_line {nl : Nlohmann} (hjson : ReadsFlat nl) (h : Genuine env now draws type m) (hnow : Int64 now)
    {fields : List (Str × Value)} (hwritten : Written env fields) :
    CryptoCodec.fromJson nl (bytes (dumpsWith .compact (.obj fields)) ++ bytes (str "\n")) = .ok env := by
  obtain ⟨hne, hkeys, hwire⟩ := h.wire hnow hwritten
  obtain ⟨-, data, hdata⟩ := wire_text hne hkeys hwire
  have hline : encodeUtf8 (dumpsWith .compact (.obj fields) ++ str "\n") = some (data ++ bytes (str "\n")) :=
    encodeUtf8_append.mpr ⟨data, bytes (str "\n"), hdata, encode_bytes (scalar_str "\n"), rfl⟩
  have hloads : loads (dumpsWith .compact (.obj fields) ++ str "\n") = some (.obj fields) := by
    refine loads_append_blank spaced_compact (.obj (fun f _ => readable_false f.1) fun f hf => ?_) fun p hp => ?_
    · exact .flat (wire_flat (hwire f hf)).flatIn
    · rw [List.mem_singleton.mp hp]
      rfl
  obtain ⟨fields', hparse, hlook⟩ := hjson.reads hline hloads hkeys hwire
  obtain ⟨htyped, hfields⟩ := (hwritten.reads.congr hlook).cpp (h.timestamp ▸ hnow)
  have hbytes : bytes (dumpsWith .compact (.obj fields)) = data := by rw [bytes, hdata, Option.getD_some]
  rw [hbytes]
  exact CryptoCodec.fromJson_ok_iff.mpr ⟨fields', hparse, htyped, hfields⟩

theorem pipeline {gcm : Bytes → AesGcm} {limit : Nat} (hw : Lawful w gcm limit) {getenv getenv' : Environment} {argv argv' : List Bytes}
    {o o' : Options} (ho : Given encryptorFlags getenv argv o) (ho' : Given decryptorFlags getenv' argv' o')
    (k : Keys w o) (k' : Keys w o') (hkey : k'.key = k.key)
    (hsigns : Signs k.signer k'.verifier) (htype : messageType o.typeStr = .ok type) (hdraws : Drawn draws)
    (hnow : Int64 now) {stdin : Bytes} (hsize : stdin.length < limit) (hfits : stdin.length ≤ 1585834077) :
    ∃ line, encryptor w getenv argv stdin now draws = .output line ∧
      ∀ now₁ now₂, decryptor w getenv' argv' line now₁ now₂ =
        if now₁ - 300000 ≤ now ∧ now ≤ now₁ + 300000 then .output stdin
        else .decryptFailed (CryptoCodec.noted (str "Timestamp outside acceptable window") (generateUuid draws.uuid)) := by
  have hshort : stdin.length < 2147483648 := hsize.trans_le hw.bio.atMost
  have hseals := hw.seals k.key k.signer k.verifier k.size
  obtain ⟨env, m, fields, hsend, hwritten, hgenuine, hiv, henc, hsignature⟩ :=
    send_written (fun _ => []) now type hseals hsigns.der hw.bio hdraws (sealedPart_short hshort _) hsize
  obtain ⟨env', hencrypt, hjson⟩ := encrypt_of_send hsend
  refine ⟨bytes (dumpsWith .compact (.obj fields)) ++ bytes (str "\n"), ?_, fun now₁ now₂ => ?_⟩
  · rw [encryptor, ho.run, sealStdin_eq k ho.complete htype stdin hencrypt, hjson]
  · rw [decryptor, ho'.run, openStdin_eq k' (fromJson_line hw.json hgenuine hnow hwritten)]
    by_cases hfresh : now₁ - 300000 ≤ now ∧ now ≤ now₁ + 300000
    · have hwindow : (codec w k'.key k'.signer k'.verifier).guard.isWithinWindow now₁ now = true :=
        ReplayGuard.isWithinWindow_iff.mpr hfresh
      obtain ⟨hlength, htag⟩ := sizes_encrypted henc
      rw [← hkey, ← hiv] at henc
      have hivSize := hiv ▸ hdraws.ivSize
      have hopen := (hw.opens k'.key k'.signer k'.verifier k'.size).cpp hivSize henc hshort
      have hready := hgenuine.ready hw.bio hivSize htag (hlength.trans_le hfits) hwindow List.not_mem_nil
      rw [decrypt_genuine_cpp hready (hsignature ▸ hsigns.verifies _ _) hopen, if_pos hfresh]
      rfl
    · have hwindow : ReplayGuard.isWithinWindow (codec w k'.key k'.signer k'.verifier).guard now₁ env.timestamp = false := by
        rw [hgenuine.timestamp]
        exact eq_false_of_ne_true (mt ReplayGuard.isWithinWindow_iff.mp hfresh)
      rw [decrypt_late hwindow, hgenuine.msgId, if_neg hfresh]
      rfl

def sampleFiles {A : Type} (path : Bytes) (held : A) (asked : Bytes) : Except Exn A :=
  if asked = path then .ok held else .error (.runtimeError (str "Cannot open file: "))

theorem sampleFiles_held {A : Type} (path : Bytes) (held : A) : sampleFiles path held path = .ok held := if_pos rfl

def sampleWorld : World where
  nl := sampleNl
  ssl := sampleSsl
  privateKey := sampleFiles (bytes (str "ecdsa_private.pem")) ⟨some samplePrivate, none⟩
  publicKey := sampleFiles (bytes (str "ecdsa_public.pem")) ⟨none, some samplePublic⟩
  evp _ := sampleCpp.cipher

theorem sample_lawful : Lawful sampleWorld (fun _ => sampleGcm) 2147483648 where
  bio := sample_bio
  json := sample_readsFlat
  seals _ _ _ _ := sample_seals.2
  opens _ _ _ _ := sample_opens.2

def sampleHex : Bytes := bytes (hexEncode (List.replicate 32 0))

def sampleFlags : List (Flag × Bytes) :=
  [(.ecdsaKey, bytes (str "ecdsa_private.pem")), (.peerPub, bytes (str "ecdsa_public.pem"))]

def sampleOptions (typeStr : Bytes) : Options where
  ecdsaKey := bytes (str "ecdsa_private.pem")
  peerPub := bytes (str "ecdsa_public.pem")
  aesKey := sampleHex
  typeStr := typeStr

def sampleKeys (typeStr : Bytes) : Keys sampleWorld (sampleOptions typeStr) where
  signer := ⟨some samplePrivate, none⟩
  verifier := ⟨none, some samplePublic⟩
  key := List.replicate 32 0
  loadsSigner := sampleFiles_held (bytes (str "ecdsa_private.pem")) _
  loadsVerifier := sampleFiles_held (bytes (str "ecdsa_public.pem")) _
  loadsKey := hexDecode_hexEncode (List.replicate 32 0)
  size := List.length_replicate

def sampleStdin : Bytes := (List.range 100).map UInt8.ofNat

theorem pipeline_sample : ∃ line,
    encryptor sampleWorld (fun _ => some sampleHex) (rendered (sampleFlags ++ [(.type, bytes MessageType.ack.value)])) sampleStdin
      1700000000000 sampleDraws = .output line ∧
    ∀ now₁ now₂, decryptor sampleWorld (fun _ => none) (rendered (sampleFlags ++ [(.aesKey, sampleHex)])) line now₁ now₂ =
      if now₁ - 300000 ≤ 1700000000000 ∧ 1700000000000 ≤ now₁ + 300000 then .output sampleStdin
      else .decryptFailed (CryptoCodec.noted (str "Timestamp outside acceptable window") (generateUuid sampleDraws.uuid)) := by
  have hsender : Given encryptorFlags (fun _ => some sampleHex)
      (rendered (sampleFlags ++ [(.type, bytes MessageType.ack.value)])) (sampleOptions (bytes MessageType.ack.value)) :=
    ⟨by rw [parseArguments_rendered (by decide)]; rfl, by decide⟩
  have hreceiver : Given decryptorFlags (fun _ => none)
      (rendered (sampleFlags ++ [(.aesKey, sampleHex)])) (sampleOptions (bytes (str "HEARTBEAT"))) :=
    ⟨by rw [parseArguments_rendered (by decide)]; rfl, by decide⟩
  have hnow : Transit.Int64 1700000000000 := by unfold Transit.Int64; omega
  exact pipeline sample_lawful hsender hreceiver (sampleKeys _) (sampleKeys _) rfl sample_signs
    (messageType_value .ack) sample_drawn hnow (by decide) (by decide)

end Pipeline

end Agent.Tools
