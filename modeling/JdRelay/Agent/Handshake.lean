import JdRelay.Agent.AgentMain
import JdRelay.Agent.CryptoCodec
import JdRelay.Crypto.Channel

namespace Agent.Handshake
open Text Json Runs Crypto

inductive Failure where
  | exn (e : Exn)
  | outOfRange (key : Str)
  | systemError
  deriving DecidableEq

def raise {A : Type} : Except Exn A → Except Failure A
  | .ok a => .ok a
  | .error e => .error (.exn e)

-- at(key) throws where value(key, default) does not.
def atKey (key : String) (j : Value) : Except Failure Value :=
  match j with
  | .obj fields =>
      match lookup? fields (str key) with
      | none => .error (.outOfRange (str key))
      | some v => .ok v
  | _ => .error (.exn .typeError)

def textAt (key : String) (j : Value) : Except Failure Str := do
  let v ← atKey key j
  match Nlohmann.getString v with
  | none => .error (.exn .typeError)
  | some s => .ok s

def contains (key : String) : Value → Bool
  | .obj fields => (lookup? fields (str key)).isSome
  | _ => false

structure HandshakeInit where
  agentId : Bytes
  projects : List Bytes
  ecdhPubPem : Bytes
  ecdsaPubPem : Bytes
  signature : Str

namespace HandshakeInit

def signingData (init : HandshakeInit) : Bytes :=
  init.agentId ++ bytes (str "|") ++ init.ecdhPubPem ++ bytes (str "|") ++ init.ecdsaPubPem

def toJson (init : HandshakeInit) : Except Exn Str := do
  let agentId ← AgentMain.dumpString init.agentId
  let ecdhPubPem ← AgentMain.dumpString init.ecdhPubPem
  let ecdsaPubPem ← AgentMain.dumpString init.ecdsaPubPem
  let projects ← init.projects.mapM AgentMain.dumpString
  .ok (dumpsWith .compact (.obj
    [(str "agent_id", agentId),
      (str "ecdh_pub_pem", ecdhPubPem),
      (str "ecdsa_pub_pem", ecdsaPubPem),
      (str "projects", .arr projects),
      (str "signature", .str init.signature),
      (str "type", .str (str "HANDSHAKE_INIT"))]))

end HandshakeInit

structure HandshakeAck where
  status : Str
  error : Str
  ecdhPubPem : Str
  ecdsaPubPem : Str
  signature : Str
  deriving DecidableEq

namespace HandshakeAck

def signingData (ack : HandshakeAck) : Str := ack.ecdhPubPem ++ str "|" ++ ack.ecdsaPubPem

def ofJson (j : Value) : Except Failure HandshakeAck := do
  let status ← textAt "status" j
  let error ← if contains "error" j then textAt "error" j else .ok []
  let ecdhPubPem ← textAt "ecdh_pub_pem" j
  let ecdsaPubPem ← textAt "ecdsa_pub_pem" j
  let signature ← textAt "signature" j
  .ok { status, error, ecdhPubPem, ecdsaPubPem, signature }

def fromJson (nl : Nlohmann) (jsonStr : Bytes) : Except Failure HandshakeAck := do
  let j ← raise (nl.parsed jsonStr)
  ofJson j

end HandshakeAck

-- The raw secret with the key of a PEM text, none where OpenSSL fails.
structure EcdhKeyExchange where
  publicKeyPem : Bytes
  derive : Bytes → Option Bytes

structure Library where
  nl : Nlohmann
  ssl : OpenSsl
  loadPublicKey : Bytes → Option PublicKey
  sha256 : Bytes → Bytes

structure Config where
  agentId : Bytes
  projects : List Bytes

structure Attempt where
  reached : Bool
  ecdh : Except Exn EcdhKeyExchange
  pubFile : Except Exn Bytes
  privFile : Except Exn PrivateKey
  entropy : Bytes
  written : Bool
  reply : Option Bytes
  privFileAgain : Except Exn PrivateKey

structure Session where
  sharedSecret : Bytes
  signer : PrivateKey
  verifier : EcdsaSigner
  ack : HandshakeAck

section Connect

variable (lib : Library)

def deriveSharedSecretPem (ecdh : EcdhKeyExchange) (peerPubPem : Bytes) : Bytes :=
  match ecdh.derive peerPubPem with
  | none => []
  | some secret => lib.sha256 secret

def fromPublicKeyData (pem : Bytes) : Except Exn EcdsaSigner :=
  match lib.loadPublicKey pem with
  | none => .error (.runtimeError (str "Failed to load ECDSA public key from PEM"))
  | some k => .ok { privateKey := none, publicKey := some k }

def aesKey (key : Bytes) : Except Exn Bytes :=
  if key.length = 32 then .ok key
  else .error (.invalidArgument (str "AES-256-GCM requires a 32-byte key, got " ++ Number.natStr key.length))

def sendInit (cfg : Config) (a : Attempt) : Except Failure (EcdhKeyExchange × Str) := do
  if !a.reached then .error .systemError else
  let ecdh ← raise a.ecdh
  let agentPubPem ← raise a.pubFile
  let signer ← raise a.privFile
  let unsigned : HandshakeInit :=
    { agentId := cfg.agentId, projects := cfg.projects, ecdhPubPem := ecdh.publicKeyPem, ecdsaPubPem := agentPubPem,
      signature := [] }
  let sig := signer.sign a.entropy unsigned.signingData
  let text ← raise { unsigned with signature := lib.ssl.base64Encode sig }.toJson
  if !a.written then .error .systemError else
  .ok (ecdh, text)

def verifies (k : PublicKey) (ack : HandshakeAck) : Bool :=
  k.verifies (lib.ssl.base64Decode ack.signature) (bytes ack.signingData)

def acceptAck (ecdh : EcdhKeyExchange) (privFile : Except Exn PrivateKey) (ack : HandshakeAck) :
    Except Failure (Option Session) := do
  if ack.status ≠ str "OK" then .ok none else
  let verifier ← raise (fromPublicKeyData lib (bytes ack.ecdsaPubPem))
  if !verifier.verify (bytes ack.signingData) (lib.ssl.base64Decode ack.signature) then .ok none else
  let sharedSecret := deriveSharedSecretPem lib ecdh (bytes ack.ecdhPubPem)
  let signer ← raise privFile
  let verifier ← raise (fromPublicKeyData lib (bytes ack.ecdsaPubPem))
  let sharedSecret ← raise (aesKey sharedSecret)
  .ok (some { sharedSecret, signer, verifier, ack })

def readAck (a : Attempt) : Except Failure HandshakeAck :=
  match a.reply with
  | none => .error .systemError
  | some text => HandshakeAck.fromJson lib.nl text

-- none is the return value false.
def connectAndHandshake (cfg : Config) (a : Attempt) : Except Failure (Option Session) := do
  let (ecdh, _) ← sendInit lib cfg a
  let ack ← readAck lib a
  acceptAck lib ecdh a.privFileAgain ack

variable {lib} {cfg : Config} {a : Attempt} {session : Session}

theorem raise_ok {A : Type} {x : Except Exn A} {v : A} : raise x = .ok v ↔ x = .ok v := by
  cases x <;> simp [raise]

theorem fromPublicKeyData_ok {pem : Bytes} {s : EcdsaSigner} : fromPublicKeyData lib pem = .ok s ↔
    ∃ k, lib.loadPublicKey pem = some k ∧ s = { privateKey := none, publicKey := some k } := by
  unfold fromPublicKeyData
  cases lib.loadPublicKey pem with
  | none => simp
  | some k => simp [eq_comm]

theorem aesKey_ok {key key' : Bytes} : aesKey key = .ok key' ↔ key.length = 32 ∧ key' = key := by
  unfold aesKey
  split
  · rename_i hsize
    simp [hsize, eq_comm]
  · rename_i hsize
    simp [hsize]

theorem acceptAck_ok {ecdh : EcdhKeyExchange} {privFile : Except Exn PrivateKey} {ack : HandshakeAck} :
    acceptAck lib ecdh privFile ack = .ok (some session) ↔
      ∃ k signer, ack.status = str "OK" ∧ lib.loadPublicKey (bytes ack.ecdsaPubPem) = some k ∧
        verifies lib k ack = true ∧ privFile = .ok signer ∧
        (deriveSharedSecretPem lib ecdh (bytes ack.ecdhPubPem)).length = 32 ∧
        session = { sharedSecret := deriveSharedSecretPem lib ecdh (bytes ack.ecdhPubPem), signer
                    verifier := { privateKey := none, publicKey := some k }, ack } := by
  unfold acceptAck
  split
  · rename_i hstatus
    exact iff_of_false nofun fun ⟨_, _, h, _⟩ => hstatus h
  · rename_i hstatus
    simp only [Python.bind_ok, raise_ok, fromPublicKeyData_ok]
    constructor
    · rintro ⟨_, ⟨k, hk, rfl⟩, h⟩
      split at h
      · cases h
      · rename_i hverify
        simp only [Python.bind_ok, raise_ok, fromPublicKeyData_ok, aesKey_ok] at h
        obtain ⟨signer, hsigner, _, ⟨k', hk', rfl⟩, _, ⟨hsize, rfl⟩, h⟩ := h
        cases hk.symm.trans hk'
        cases h
        have hverifies : verifies lib k ack = true := by simpa [EcdsaSigner.verify, verifies] using hverify
        exact ⟨k, signer, not_not.mp hstatus, hk, hverifies, hsigner, hsize, rfl⟩
    · rintro ⟨k, signer, -, hk, hverifies, hsigner, hsize, rfl⟩
      refine ⟨_, ⟨k, hk, rfl⟩, ?_⟩
      have hverify : (!EcdsaSigner.verify ⟨none, some k⟩ (bytes ack.signingData) (lib.ssl.base64Decode ack.signature)) =
          false := by simpa [EcdsaSigner.verify, verifies] using hverifies
      rw [hverify, if_neg Bool.false_ne_true]
      simp only [Python.bind_ok, raise_ok, fromPublicKeyData_ok, aesKey_ok]
      exact ⟨signer, hsigner, _, ⟨k, hk, rfl⟩, _, ⟨hsize, rfl⟩, rfl⟩

structure Acceptable (lib : Library) (cfg : Config) (a : Attempt) (ack : HandshakeAck) : Prop where
  status : ack.status = str "OK"
  signed : ∃ k, lib.loadPublicKey (bytes ack.ecdsaPubPem) = some k ∧ verifies lib k ack = true
  signer : ∃ key, a.privFileAgain = .ok key
  agreed : ∃ ecdh text, sendInit lib cfg a = .ok (ecdh, text) ∧
    (deriveSharedSecretPem lib ecdh (bytes ack.ecdhPubPem)).length = 32

theorem acceptable_of_connect (h : connectAndHandshake lib cfg a = .ok (some session)) :
    readAck lib a = .ok session.ack ∧ Acceptable lib cfg a session.ack := by
  simp only [connectAndHandshake, Python.bind_ok] at h
  obtain ⟨⟨ecdh, text⟩, hsend, ack, hack, haccept⟩ := h
  obtain ⟨k, signer, hstatus, hk, hverifies, hsigner, hsize, rfl⟩ := acceptAck_ok.mp haccept
  exact ⟨hack, hstatus, ⟨k, hk, hverifies⟩, ⟨signer, hsigner⟩, ecdh, text, hsend, hsize⟩

theorem connect_of_acceptable {ack : HandshakeAck} (hack : readAck lib a = .ok ack) (h : Acceptable lib cfg a ack) :
    ∃ session, connectAndHandshake lib cfg a = .ok (some session) ∧ session.ack = ack := by
  obtain ⟨k, hk, hverifies⟩ := h.signed
  obtain ⟨signer, hsigner⟩ := h.signer
  obtain ⟨ecdh, text, hsend, hsize⟩ := h.agreed
  have haccept := acceptAck_ok.mpr ⟨k, signer, h.status, hk, hverifies, hsigner, hsize, rfl⟩
  simp only [connectAndHandshake, Python.bind_ok]
  exact ⟨_, ⟨(ecdh, text), hsend, ack, hack, haccept⟩, rfl⟩

end Connect

-- forwarder is the key the operator deployed and forwarderPem the text of its public key file.
structure Deployment where
  lib : Library
  forwarder : PublicKey
  forwarderPem : Str

structure Net where
  acks : List Str
  messages : List Str
  sessions : List Session

-- The Forwarder's key also signs the envelopes of its sessions. Everything else is the attacker's to send.
inductive Event where
  | acknowledge (ecdhPem : Str)
  | message (now : Int) (draws : Draws) (type : MessageType) (enc : Crypto.EncryptResult)
  | connect (cfg : Config) (a : Attempt)

namespace Deployment

variable (d : Deployment)

def ackData (ecdhPem : Str) : Str := ecdhPem ++ str "|" ++ d.forwarderPem

def signed (s : Net) : List Str := s.acks.map d.ackData ++ s.messages

def step (s : Net) : Event → Option Net
  | .acknowledge ecdhPem => some { s with acks := ecdhPem :: s.acks }
  | .message now draws type enc =>
      some { s with messages := join bar (Channel.genuineFields now draws type enc) :: s.messages }
  | .connect cfg a =>
      match connectAndHandshake d.lib cfg a with
      | .ok (some session) => some { s with sessions := session :: s.sessions }
      | _ => some s

def machine : Machine Net Event where
  init := { acks := [], messages := [], sessions := [] }
  step := d.step

-- A PEM text has no '|' and, in its BEGIN line, a space.
structure WellFormed : Prop where
  loads : d.lib.loadPublicKey (bytes d.forwarderPem) = some d.forwarder
  clean : bar ∉ d.forwarderPem
  begins : ∀ pem k, d.lib.loadPublicKey (bytes pem) = some k → ofChar ' ' ∈ pem

def Ideal (s : Net) : Event → Prop
  | .acknowledge ecdhPem => bar ∉ ecdhPem
  | .connect _ a => ∀ ack, readAck d.lib a = .ok ack → verifies d.lib d.forwarder ack = true →
      ∃ text ∈ d.signed s, encodeUtf8 text = some (bytes ack.signingData)
  | _ => True

def Authentic (s : Net) : Prop :=
  ∀ session ∈ s.sessions, session.ack.ecdhPubPem ∈ s.acks ∧ session.ack.ecdsaPubPem = d.forwarderPem

def ExpectedKey (_ : Net) : Event → Prop
  | .connect cfg a => ∀ ack, readAck d.lib a = .ok ack → Acceptable d.lib cfg a ack →
      d.lib.loadPublicKey (bytes ack.ecdsaPubPem) = some d.forwarder
  | _ => True

end Deployment

theorem bytes_of_encode {s t : Str} (ht : t ≠ []) (h : encodeUtf8 t = some (bytes s)) : s = t := by
  unfold bytes at h
  cases hs : encodeUtf8 s with
  | some b =>
      rw [hs] at h
      exact encode_injective hs h
  | none =>
      rw [hs] at h
      exact absurd (encode_injective h rfl) ht

theorem space_notMem_message (now : Int) (draws : Draws) (type : MessageType) (enc : Crypto.EncryptResult) :
    ofChar ' ' ∉ join bar (Channel.genuineFields now draws type enc) := by
  intro h
  rcases mem_join h with h | ⟨f, hf, hmem⟩
  · exact absurd h (by decide)
  · have hb64 : ∀ data, ofChar ' ' ∉ b64Encode data := notMem_b64Encode (by decide) (by decide) (by decide)
    simp only [Channel.genuineFields, List.mem_cons, List.not_mem_nil, or_false] at hf
    rcases hf with rfl | rfl | rfl | rfl | rfl | rfl | rfl
    · exact notMem_generateUuid (by decide) (by decide) _ hmem
    · exact Number.not_intChar (by decide) (by decide) (Number.intStr_chars hmem)
    · exact hb64 _ hmem
    · revert hmem
      cases type <;> decide
    · exact hb64 _ hmem
    · exact hb64 _ hmem
    · exact hb64 _ hmem

theorem ackText_eq_join (ecdhPem ecdsaPem : Str) :
    ecdhPem ++ str "|" ++ ecdsaPem = join bar [ecdhPem, ecdsaPem] := by
  rw [join_cons_cons, join_singleton, List.append_assoc]
  rfl

section Run

variable {d : Deployment} {s t : Net} {e : Event}

structure Inv (s : Net) : Prop where
  acks : ∀ pem ∈ s.acks, bar ∉ pem
  messages : ∀ text ∈ s.messages, text ≠ [] ∧ ofChar ' ' ∉ text

theorem ack_of_signed (hd : d.WellFormed) (hs : Inv s) {ack : HandshakeAck} {text : Str} {k : PublicKey}
    (htext : text ∈ d.signed s) (hencode : encodeUtf8 text = some (bytes ack.signingData))
    (hkey : d.lib.loadPublicKey (bytes ack.ecdsaPubPem) = some k) :
    ack.ecdhPubPem ∈ s.acks ∧ ack.ecdsaPubPem = d.forwarderPem := by
  rcases List.mem_append.mp htext with h | h
  · obtain ⟨ecdhPem, hmem, rfl⟩ := List.mem_map.mp h
    have hne : d.ackData ecdhPem ≠ [] := by simp [Deployment.ackData, str]
    have hsame := bytes_of_encode hne hencode
    simp only [HandshakeAck.signingData, Deployment.ackData, ackText_eq_join] at hsame
    have hclean : ∀ f ∈ [ecdhPem, d.forwarderPem], bar ∉ f := by simp [hs.acks ecdhPem hmem, hd.clean]
    have hfields : [ack.ecdhPubPem, ack.ecdsaPubPem] = [ecdhPem, d.forwarderPem] := join_injective rfl hclean hsame
    simp only [List.cons.injEq, and_true] at hfields
    exact ⟨hfields.1 ▸ hmem, hfields.2⟩
  · obtain ⟨hne, hspace⟩ := hs.messages text h
    rw [← bytes_of_encode hne hencode] at hspace
    have hmem : ofChar ' ' ∈ ack.signingData := List.mem_append_right _ (hd.begins _ _ hkey)
    exact absurd hmem hspace

theorem inv_step (hs : Inv s) (hideal : d.Ideal s e) (h : d.step s e = some t) : Inv t := by
  cases e with
  | acknowledge ecdhPem =>
      cases h
      refine ⟨fun pem hmem => ?_, hs.messages⟩
      rcases List.mem_cons.mp hmem with rfl | hmem
      · exact hideal
      · exact hs.acks pem hmem
  | message now draws type enc =>
      cases h
      refine ⟨hs.acks, fun text hmem => ?_⟩
      rcases List.mem_cons.mp hmem with rfl | hmem
      · refine ⟨fun hnil => ?_, space_notMem_message now draws type enc⟩
        rw [Channel.genuineFields, join_cons_cons] at hnil
        simp at hnil
      · exact hs.messages text hmem
  | connect cfg a =>
      simp only [Deployment.step] at h
      split at h <;> cases h <;> exact ⟨hs.acks, hs.messages⟩

theorem authentic_step (hd : d.WellFormed) (hs : Inv s) (hauth : d.Authentic s) (hideal : d.Ideal s e)
    (h : d.step s e = some t) : d.Authentic t ↔ d.ExpectedKey s e := by
  cases e with
  | acknowledge ecdhPem =>
      cases h
      refine iff_of_true (fun session hmem => ?_) trivial
      obtain ⟨hecdh, hecdsa⟩ := hauth session hmem
      exact ⟨List.mem_cons_of_mem _ hecdh, hecdsa⟩
  | message now draws type enc =>
      cases h
      exact iff_of_true hauth trivial
  | connect cfg a =>
      simp only [Deployment.step] at h
      simp only [Deployment.ExpectedKey]
      split at h
      · rename_i session hconnect
        cases h
        obtain ⟨hack, hacceptable⟩ := acceptable_of_connect hconnect
        obtain ⟨k, hload, hverify⟩ := hacceptable.signed
        constructor
        · intro hall ack hack' _
          cases hack.symm.trans hack'
          rw [(hall session List.mem_cons_self).2]
          exact hd.loads
        · intro hexpected other hmem
          rcases List.mem_cons.mp hmem with rfl | hmem
          · have hfwd := hexpected other.ack hack hacceptable
            rw [hload, Option.some.injEq] at hfwd
            obtain ⟨text, htext, hencode⟩ := hideal other.ack hack (hfwd ▸ hverify)
            exact ack_of_signed hd hs htext hencode hload
          · exact hauth other hmem
      · rename_i hnone
        cases h
        refine iff_of_true hauth fun ack hack hacceptable => ?_
        obtain ⟨session, hconnect, -⟩ := connect_of_acceptable hack hacceptable
        exact absurd hconnect (hnone session)

theorem forwarder_signed_iff (hd : d.WellFormed) {es : List Event} (hrun : d.machine.IsRun es)
    (hideal : d.machine.Guarded d.Ideal d.machine.init es) :
    d.machine.Always d.Authentic d.machine.init es ↔ d.machine.Guarded d.ExpectedKey d.machine.init es :=
  have hinit : Inv d.machine.init := ⟨fun _ h => absurd h List.not_mem_nil, fun _ h => absurd h List.not_mem_nil⟩
  d.machine.always_iff_guarded_of inv_step (fun hs hauth hideal h => authentic_step hd hs hauth hideal h) hinit
    (fun _ h => absurd h List.not_mem_nil) hrun hideal

end Run

section Impostor

def pemOf (name : String) : Str := str "-----BEGIN PUBLIC KEY-----\n" ++ str name ++ str "\n-----END PUBLIC KEY-----\n"

def signatureOf (id : UInt8) (data : Bytes) : Bytes := [id, UInt8.ofNat data.length]

def keyOf (id : UInt8) : PublicKey := ⟨fun signature data => signature == signatureOf id data⟩

def sampleLoad (pem : Bytes) : Option PublicKey :=
  if encodeUtf8 (pemOf "Forwarder") = some pem then some (keyOf 1)
  else if encodeUtf8 (pemOf "Mallory") = some pem then some (keyOf 2)
  else none

-- On the ASCII texts below this is what UTF-8 gives.
def sampleParse (text : Bytes) : Option Value := loads (text.map fun b => codePoint b.toNat)

def sampleDeployment : Deployment where
  lib :=
    { nl := { parse := sampleParse, ofDouble := fun _ => 0, boolAsLongLong := true }
      ssl := { bioWrite := Base64Text.bioText, bioRead := fun text => ((decodeUtf8 text).bind b64Decode).getD [] }
      loadPublicKey := sampleLoad
      sha256 := fun secret => List.replicate 32 (UInt8.ofNat secret.length) }
  forwarder := keyOf 1
  forwarderPem := pemOf "Forwarder"

theorem sample_pems : ∀ name ∈ ["Forwarder", "Mallory"], encodeUtf8 (pemOf name) = some (bytes (pemOf name)) ∧
    pemOf name ≠ [] ∧ bar ∉ pemOf name ∧ ofChar ' ' ∈ pemOf name := by
  decide +kernel

theorem sample_wellFormed : sampleDeployment.WellFormed where
  loads := by
    simp only [sampleDeployment, sampleLoad]
    rw [if_pos (sample_pems "Forwarder" List.mem_cons_self).1]
  clean := (sample_pems "Forwarder" List.mem_cons_self).2.2.1
  begins := fun pem k h => by
    simp only [sampleDeployment, sampleLoad] at h
    split at h
    · rename_i hpem
      obtain ⟨-, hne, -, hspace⟩ := sample_pems "Forwarder" (by simp)
      rwa [bytes_of_encode hne hpem]
    · split at h
      · rename_i hpem
        obtain ⟨-, hne, -, hspace⟩ := sample_pems "Mallory" (by simp)
        rwa [bytes_of_encode hne hpem]
      · cases h

def sampleConfig : Config := ⟨[97], [[112]]⟩

-- The attacker answers with two keys of its own and signs with the second one.
def forgedAck : HandshakeAck where
  status := str "OK"
  error := []
  ecdhPubPem := pemOf "Mallory ECDH"
  ecdsaPubPem := pemOf "Mallory"
  signature := b64Encode (signatureOf 2 (bytes (pemOf "Mallory ECDH" ++ str "|" ++ pemOf "Mallory")))

def replyOf (ack : HandshakeAck) : Bytes :=
  bytes (dumpsWith .compact (.obj
    [(str "type", .str (str "HANDSHAKE_ACK")),
      (str "status", .str ack.status),
      (str "ecdh_pub_pem", .str ack.ecdhPubPem),
      (str "ecdsa_pub_pem", .str ack.ecdsaPubPem),
      (str "signature", .str ack.signature)]))

def sampleKey : PrivateKey := ⟨fun _ data => signatureOf 3 data, keyOf 3⟩

def sampleAttempt (reply : Bytes) : Attempt where
  reached := true
  ecdh := .ok ⟨[101], some⟩
  pubFile := .ok [107]
  privFile := .ok sampleKey
  entropy := []
  written := true
  reply := some reply
  privFileAgain := .ok sampleKey

def impostorRun : List Event := [.connect sampleConfig (sampleAttempt (replyOf forgedAck))]

def honestAck : HandshakeAck where
  status := str "OK"
  error := []
  ecdhPubPem := pemOf "ECDH"
  ecdsaPubPem := pemOf "Forwarder"
  signature := b64Encode (signatureOf 1 (bytes (pemOf "ECDH" ++ str "|" ++ pemOf "Forwarder")))

def honestRun : List Event :=
  [.acknowledge (pemOf "ECDH"), .connect sampleConfig (sampleAttempt (replyOf honestAck))]

theorem samples_read :
    (∀ ack ∈ [forgedAck, honestAck], readAck sampleDeployment.lib (sampleAttempt (replyOf ack)) = .ok ack) ∧
    verifies sampleDeployment.lib sampleDeployment.forwarder forgedAck = false ∧
    (sampleDeployment.machine.exec sampleDeployment.machine.init impostorRun).map
      (fun s => (s.acks, s.sessions.map (·.ack))) = some ([], [forgedAck]) ∧
    bar ∉ pemOf "ECDH" ∧ encodeUtf8 honestAck.signingData = some (bytes honestAck.signingData) ∧
    sampleDeployment.machine.IsRun honestRun := by
  decide +kernel

theorem impostor_ideal :
    sampleDeployment.machine.Guarded sampleDeployment.Ideal sampleDeployment.machine.init impostorRun := by
  refine ⟨fun ack hack hverify => ?_, fun _ _ => trivial⟩
  obtain ⟨hread, hforged, -⟩ := samples_read
  cases (hread forgedAck List.mem_cons_self).symm.trans hack
  exact absurd hverify (hforged ▸ Bool.false_ne_true)

theorem impostor_accepted :
    sampleDeployment.machine.IsRun impostorRun ∧
      sampleDeployment.machine.Guarded sampleDeployment.Ideal sampleDeployment.machine.init impostorRun ∧
        ¬ sampleDeployment.machine.Always sampleDeployment.Authentic sampleDeployment.machine.init impostorRun := by
  obtain ⟨t, ht, hstate⟩ := Option.map_eq_some_iff.mp samples_read.2.2.1
  refine ⟨Option.isSome_of_eq_some ht, impostor_ideal, fun h => ?_⟩
  obtain ⟨hacks, hsessions⟩ := Prod.mk.inj hstate
  obtain ⟨session, hmem, -⟩ := List.mem_map.mp (hsessions ▸ List.mem_cons_self : forgedAck ∈ t.sessions.map (·.ack))
  have hauth := (sampleDeployment.machine.always_exec h ht session hmem).1
  rw [hacks] at hauth
  cases hauth

theorem honest_ideal :
    sampleDeployment.machine.Guarded sampleDeployment.Ideal sampleDeployment.machine.init honestRun := by
  obtain ⟨hread, -, -, hbar, hencode, -⟩ := samples_read
  refine ⟨hbar, fun t ht => ⟨fun ack hack _ => ?_, fun _ _ => trivial⟩⟩
  cases ht
  cases (hread honestAck (by simp)).symm.trans hack
  exact ⟨honestAck.signingData, List.mem_cons_self, hencode⟩

theorem forwarder_signed_iff_honestRun :
    sampleDeployment.machine.Always sampleDeployment.Authentic sampleDeployment.machine.init honestRun ↔
      sampleDeployment.machine.Guarded sampleDeployment.ExpectedKey sampleDeployment.machine.init honestRun :=
  forwarder_signed_iff sample_wellFormed samples_read.2.2.2.2.2 honest_ideal

end Impostor

end Agent.Handshake
