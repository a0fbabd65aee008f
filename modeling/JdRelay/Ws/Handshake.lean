import JdRelay.Agent.Handshake

namespace Ws.Handshake
open Text Json Crypto

inductive Failure where
  | handshake (text : Str)
  | invalidJson
  | disconnected
  | raised (e : Python.Error)
  deriving DecidableEq

def raise {A : Type} : Except Python.Error A → Except Failure A
  | .ok a => .ok a
  | .error e => .error (.raised e)

-- The values of the JSON object: nothing below checks that they are strings before it uses them as such.
structure HandshakeInit where
  agentId : Value
  projects : Value
  ecdhPubPem : Value
  ecdsaPubPem : Value
  signature : Value
  deriving DecidableEq

structure EcdhKeyExchange where
  publicKeyPem : Str
  exchange : Bytes → Except Python.Error Bytes

structure Library where
  reprOf : Value → Str
  loadPublicKey : Bytes → Except Python.Error PublicKey
  sha256 : Bytes → Bytes

structure Local where
  ecdh : EcdhKeyExchange
  signer : Except Python.Error PrivateKey
  fwdPubPem : Except Python.Error Str
  entropy : Bytes
  sends : Bool

structure Session where
  init : HandshakeInit
  sharedSecret : Bytes
  signer : PrivateKey
  verifier : EcdsaSigner

structure Result where
  outcome : Except Failure Session
  sent : List Str

def required : List String := ["agent_id", "projects", "ecdh_pub_pem", "ecdsa_pub_pem", "signature"]

-- field in j, which is a key of an object, an item of a list or a part of a string.
def isIn (field : String) : Value → Except Python.Error Bool
  | .obj fields => .ok (lookup? fields (str field)).isSome
  | .arr items => .ok (decide (Value.str (str field) ∈ items))
  | .str s => .ok (decide (str field <:+: s))
  | _ => .error .typeError

def requireFields (j : Value) : List String → Except Failure Unit
  | [] => .ok ()
  | field :: rest => do
      let present ← raise (isIn field j)
      if present then requireFields j rest else .error (.handshake (str "Missing field: " ++ str field))

def ofFields (fields : List (Str × Value)) : HandshakeInit where
  agentId := Python.get fields "agent_id" .null
  projects := Python.get fields "projects" .null
  ecdhPubPem := Python.get fields "ecdh_pub_pem" .null
  ecdsaPubPem := Python.get fields "ecdsa_pub_pem" .null
  signature := Python.get fields "signature" .null

section Parse

variable (reprOf : Value → Str)

def parseHandshakeInit (raw : Str) : Except Failure HandshakeInit :=
  match loads raw with
  | none => .error .invalidJson
  | some j => do
      requireFields j required
      match j with
      | .obj fields =>
          let type := Python.get fields "type" .null
          if type ≠ .str (str "HANDSHAKE_INIT") then
            .error (.handshake (str "Expected HANDSHAKE_INIT, got " ++ Python.strOf reprOf type))
          else .ok (ofFields fields)
      | _ => .error (.raised .attributeError)

def signingData (init : HandshakeInit) : Str :=
  Python.strOf reprOf init.agentId ++ str "|" ++ Python.strOf reprOf init.ecdhPubPem ++ str "|" ++
    Python.strOf reprOf init.ecdsaPubPem

end Parse

def encodeUtf8Of : Value → Except Python.Error Bytes
  | .str s => CryptoCodec.utf8 s
  | _ => .error .attributeError

def encodeAsciiOf : Value → Except Python.Error Bytes
  | .str s => if isAscii s then CryptoCodec.utf8 s else .error .unicodeEncodeError
  | _ => .error .attributeError

variable (lib : Library)

-- An empty text loads no key, and no signature verifies then.
def fromPublicKeyData (pem : Bytes) : Except Python.Error EcdsaSigner :=
  if pem = [] then .ok ⟨none, none⟩ else (lib.loadPublicKey pem).map fun k => ⟨none, some k⟩

def verifyInit (init : HandshakeInit) : Except Failure (EcdsaSigner × Bool) := do
  let pem ← raise (encodeUtf8Of init.ecdsaPubPem)
  let verifier ← raise (fromPublicKeyData lib pem)
  let signature ← raise (CryptoCodec.b64Field init.signature)
  let data ← raise (CryptoCodec.utf8 (signingData lib.reprOf init))
  .ok (verifier, verifier.verify data signature)

def deriveSharedSecretPem (ecdh : EcdhKeyExchange) (peerPubPem : Value) : Except Python.Error Bytes := do
  let pem ← encodeAsciiOf peerPubPem
  let rawSecret ← ecdh.exchange pem
  .ok (lib.sha256 rawSecret)

def ackJson (ecdhPubPem fwdPubPem : Str) (sig : Bytes) : Str :=
  dumps (.obj
    [(str "type", .str (str "HANDSHAKE_ACK")),
      (str "status", .str (str "OK")),
      (str "ecdh_pub_pem", .str ecdhPubPem),
      (str "ecdsa_pub_pem", .str fwdPubPem),
      (str "signature", .str (b64Encode sig))])

def errorJson (error : String) : Str :=
  dumps (.obj
    [(str "type", .str (str "HANDSHAKE_ACK")),
      (str "status", .str (str "ERROR")),
      (str "error", .str (str error))])

def answer (l : Local) (init : HandshakeInit) (verifier : EcdsaSigner) : Except Failure (Session × Str) := do
  let sharedSecret ← raise (deriveSharedSecretPem lib l.ecdh init.ecdhPubPem)
  let signer ← raise l.signer
  let fwdPubPem ← raise l.fwdPubPem
  let ackData ← raise (CryptoCodec.utf8 (l.ecdh.publicKeyPem ++ str "|" ++ fwdPubPem))
  let sig := signer.sign l.entropy ackData
  .ok ({ init, sharedSecret, signer, verifier }, ackJson l.ecdh.publicKeyPem fwdPubPem sig)

-- raw is none where the peer leaves before it has sent anything.
def doHandshake (l : Local) (raw : Option Str) : Result :=
  match raw with
  | none => ⟨.error .disconnected, []⟩
  | some raw =>
      match parseHandshakeInit lib.reprOf raw with
      | .error e => ⟨.error e, []⟩
      | .ok init =>
          match verifyInit lib init with
          | .error e => ⟨.error e, []⟩
          | .ok (_, false) =>
              ⟨.error (.handshake (str "Agent signature verification failed")),
                if l.sends then [errorJson "Signature verification failed"] else []⟩
          | .ok (verifier, true) =>
              match answer lib l init verifier with
              | .error e => ⟨.error e, []⟩
              | .ok (session, ack) => if l.sends then ⟨.ok session, [ack]⟩ else ⟨.error .disconnected, []⟩

section Verified

variable {lib} {l : Local} {init : HandshakeInit} {session : Session}

structure Verified (lib : Library) (init : HandshakeInit) (pem data : Bytes) (k : PublicKey) : Prop where
  encoded : encodeUtf8Of init.ecdsaPubPem = .ok pem
  loaded : lib.loadPublicKey pem = .ok k
  signed : encodeUtf8 (signingData lib.reprOf init) = some data
  verified : ∃ signature, CryptoCodec.b64Field init.signature = .ok signature ∧ k.verifies signature data = true

theorem raise_ok {A : Type} {x : Except Python.Error A} {a : A} : raise x = .ok a ↔ x = .ok a := by
  cases x <;> simp [raise]

theorem verifyInit_ok {verifier : EcdsaSigner} (h : verifyInit lib init = .ok (verifier, true)) :
    ∃ pem data k, verifier = ⟨none, some k⟩ ∧ Verified lib init pem data k := by
  simp only [verifyInit, Python.bind_ok, raise_ok, CryptoCodec.utf8_ok] at h
  obtain ⟨pem, hpem, verifier', hload, signature, hsignature, data, hdata, h⟩ := h
  obtain ⟨rfl, hverify⟩ := Prod.mk.inj (Except.ok.inj h)
  unfold fromPublicKeyData at hload
  split at hload
  · cases hload
    cases hverify
  · cases hk : lib.loadPublicKey pem with
    | error e =>
        rw [hk] at hload
        cases hload
    | ok k =>
        rw [hk] at hload
        cases hload
        exact ⟨pem, data, k, rfl, hpem, hk, hdata, signature, hsignature, hverify⟩

theorem answer_ok {verifier : EcdsaSigner} {ack : Str} (h : answer lib l init verifier = .ok (session, ack)) :
    session.init = init ∧ session.verifier = verifier ∧
      deriveSharedSecretPem lib l.ecdh init.ecdhPubPem = .ok session.sharedSecret := by
  simp only [answer, Python.bind_ok, raise_ok] at h
  obtain ⟨sharedSecret, hsecret, signer, -, fwdPubPem, -, ackData, -, h⟩ := h
  obtain ⟨rfl, -⟩ := Prod.mk.inj (Except.ok.inj h)
  exact ⟨rfl, rfl, hsecret⟩

theorem answered_of_doHandshake {raw : Option Str} (h : (doHandshake lib l raw).outcome = .ok session) :
    ∃ text init verifier ack, raw = some text ∧ parseHandshakeInit lib.reprOf text = .ok init ∧
      verifyInit lib init = .ok (verifier, true) ∧ answer lib l init verifier = .ok (session, ack) ∧
        l.sends = true := by
  unfold doHandshake at h
  split at h
  · cases h
  · rename_i text
    split at h
    · cases h
    · rename_i init hparse
      split at h
      · cases h
      · cases h
      · rename_i verifier hverify
        split at h
        · cases h
        · rename_i session' ack hanswer
          split at h
          · rename_i hsends
            cases h
            exact ⟨text, init, verifier, ack, rfl, hparse, hverify, hanswer, hsends⟩
          · cases h

theorem doHandshake_ok {raw : Option Str} (h : (doHandshake lib l raw).outcome = .ok session) :
    ∃ text, raw = some text ∧ parseHandshakeInit lib.reprOf text = .ok session.init ∧
      deriveSharedSecretPem lib l.ecdh session.init.ecdhPubPem = .ok session.sharedSecret ∧
        ∃ pem data k, session.verifier = ⟨none, some k⟩ ∧ Verified lib session.init pem data k := by
  obtain ⟨text, init, verifier, ack, rfl, hparse, hverify, hanswer, -⟩ := answered_of_doHandshake h
  obtain ⟨rfl, rfl, hsecret⟩ := answer_ok hanswer
  exact ⟨text, rfl, hparse, hsecret, verifyInit_ok hverify⟩

-- A connection's own side: its key pair exchanges with the key of the init, its files can be read and its ACK is sent.
structure Ready (l : Local) (init : HandshakeInit) : Prop where
  exchanges : ∀ pem, encodeAsciiOf init.ecdhPubPem = .ok pem → ∃ rawSecret, l.ecdh.exchange pem = .ok rawSecret
  signer : ∃ k, l.signer = .ok k
  fwdPubPem : ∃ pem, l.fwdPubPem = .ok pem ∧ ∃ data, encodeUtf8 (l.ecdh.publicKeyPem ++ str "|" ++ pem) = some data
  sends : l.sends = true

theorem answer_ready {l' : Local} {verifier : EcdsaSigner} {ack : Str}
    (h : answer lib l init verifier = .ok (session, ack)) (hready : Ready l' init) :
    ∃ session' ack', answer lib l' init verifier = .ok (session', ack') ∧ session'.init = init := by
  obtain ⟨-, -, hsecret⟩ := answer_ok h
  simp only [deriveSharedSecretPem, Python.bind_ok] at hsecret
  obtain ⟨pem, hpem, -⟩ := hsecret
  obtain ⟨rawSecret, hexchange⟩ := hready.exchanges pem hpem
  obtain ⟨signer, hsigner⟩ := hready.signer
  obtain ⟨fwdPubPem, hfwd, data, hdata⟩ := hready.fwdPubPem
  have hderived : deriveSharedSecretPem lib l'.ecdh init.ecdhPubPem = .ok (lib.sha256 rawSecret) := by
    simp only [deriveSharedSecretPem, hpem, hexchange, bind, Except.bind]
  refine ⟨⟨init, lib.sha256 rawSecret, signer, verifier⟩,
    ackJson l'.ecdh.publicKeyPem fwdPubPem (signer.sign l'.entropy data), ?_, rfl⟩
  simp only [answer, hderived, hsigner, hfwd, CryptoCodec.utf8_ok.mpr hdata, raise, bind, Except.bind]

theorem doHandshake_again {l' : Local} {raw : Option Str} (h : (doHandshake lib l raw).outcome = .ok session)
    (hready : Ready l' session.init) :
    ∃ session', (doHandshake lib l' raw).outcome = .ok session' ∧ session'.init = session.init := by
  obtain ⟨text, init, verifier, ack, rfl, hparse, hverify, hanswer, -⟩ := answered_of_doHandshake h
  obtain ⟨rfl, -, -⟩ := answer_ok hanswer
  obtain ⟨session', ack', hanswer', hinit⟩ := answer_ready hanswer hready
  refine ⟨session', ?_, hinit⟩
  simp only [doHandshake, hparse, hverify, hanswer', hready.sends, if_true]

end Verified

-- The owner of a private key: the inits and the envelopes it signed.
structure Holder where
  key : PublicKey
  built : List Agent.Handshake.HandshakeInit
  messages : List Bytes

namespace Holder

def signed (p : Holder) : List Bytes := p.built.map (·.signingData) ++ p.messages

-- The payload of an envelope is made of a UUID, a number, a type name and base64: unlike a PEM text it has no space.
structure Secure (lib : Library) (p : Holder) : Prop where
  unforgeable : ∀ signature data, p.key.verifies signature data = true → data ∈ p.signed
  messages : ∀ data ∈ p.messages, 32 ∉ data
  begins : ∀ pem k, lib.loadPublicKey pem = .ok k → 32 ∈ pem

end Holder

structure Clean (init : Agent.Handshake.HandshakeInit) : Prop where
  agentId : 124 ∉ init.agentId
  ecdhPubPem : 124 ∉ init.ecdhPubPem
  ecdsaPubPem : 124 ∉ init.ecdsaPubPem

section Tamper

variable {lib} {l : Local} {session : Session}

theorem bytes_bar : encodeUtf8 (str "|") = some [124] := by decide

theorem append_eq_join {A : Type} (sep : A) (x y z : List A) :
    x ++ [sep] ++ y ++ [sep] ++ z = join sep [x, y, z] := by
  simp [join_cons_cons]

theorem signingData_bytes {init : HandshakeInit} {data : Bytes}
    (h : encodeUtf8 (signingData lib.reprOf init) = some data) :
    ∃ agentId ecdhPubPem ecdsaPubPem, encodeUtf8 (Python.strOf lib.reprOf init.agentId) = some agentId ∧
      encodeUtf8 (Python.strOf lib.reprOf init.ecdhPubPem) = some ecdhPubPem ∧
      encodeUtf8 (Python.strOf lib.reprOf init.ecdsaPubPem) = some ecdsaPubPem ∧
      data = join 124 [agentId, ecdhPubPem, ecdsaPubPem] := by
  simp only [signingData, encodeUtf8_append, bytes_bar, Option.some.injEq] at h
  obtain ⟨_, ecdsa, ⟨_, _, ⟨_, ecdh, ⟨id, _, hid, rfl, rfl⟩, hecdh, rfl⟩, rfl, rfl⟩, hecdsa, rfl⟩ := h
  exact ⟨id, ecdh, ecdsa, hid, hecdh, hecdsa, append_eq_join 124 id ecdh ecdsa⟩

theorem holder_signingData (init : Agent.Handshake.HandshakeInit) :
    init.signingData = join 124 [init.agentId, init.ecdhPubPem, init.ecdsaPubPem] := by
  have hbar : Agent.bytes (str "|") = [124] := by decide
  rw [Agent.Handshake.HandshakeInit.signingData, hbar, append_eq_join]

theorem encodeUtf8Of_ok {v : Value} {b : Bytes} (h : encodeUtf8Of v = .ok b) :
    ∃ s, v = .str s ∧ encodeUtf8 s = some b := by
  cases v with
  | str s => exact ⟨s, rfl, CryptoCodec.utf8_ok.mp h⟩
  | _ => cases h

theorem encodeAsciiOf_ok {v : Value} {b : Bytes} (h : encodeAsciiOf v = .ok b) :
    ∃ s, v = .str s ∧ encodeUtf8 s = some b := by
  cases v with
  | str s =>
      simp only [encodeAsciiOf] at h
      split at h
      · exact ⟨s, rfl, CryptoCodec.utf8_ok.mp h⟩
      · cases h
  | _ => cases h

theorem built_of_verified {p : Holder} (hp : p.Secure lib) {init : HandshakeInit} {pem data : Bytes}
    (h : Verified lib init pem data p.key) : ∃ built ∈ p.built, data = built.signingData := by
  obtain ⟨signature, -, hverify⟩ := h.verified
  rcases List.mem_append.mp (hp.unforgeable signature data hverify) with hmem | hmem
  · obtain ⟨built, hbuilt, rfl⟩ := List.mem_map.mp hmem
    exact ⟨built, hbuilt, rfl⟩
  · obtain ⟨id, ecdh, ecdsa, -, -, hecdsa, rfl⟩ := signingData_bytes h.signed
    obtain ⟨s, hs, hpem⟩ := encodeUtf8Of_ok h.encoded
    rw [hs, Python.strOf, hpem, Option.some.injEq] at hecdsa
    subst hecdsa
    have hspace : 32 ∈ pem := hp.begins pem p.key h.loaded
    have hdata : 32 ∈ join 124 [id, ecdh, pem] := by
      rw [join_cons_cons, join_cons_cons, join_singleton]
      simp [hspace]
    exact absurd hdata (hp.messages _ hmem)

-- The projects are not in the signed text, so any others pass the same check.
theorem tamper_evident {p : Holder} (hp : p.Secure lib) {raw : Option Str} {pem : Bytes}
    (h : (doHandshake lib l raw).outcome = .ok session) (hpem : encodeUtf8Of session.init.ecdsaPubPem = .ok pem)
    (hkey : lib.loadPublicKey pem = .ok p.key) :
    ∃ built ∈ p.built, encodeUtf8 (signingData lib.reprOf session.init) = some built.signingData ∧
      (Clean built → encodeUtf8 (Python.strOf lib.reprOf session.init.agentId) = some built.agentId ∧
        encodeUtf8Of session.init.ecdhPubPem = .ok built.ecdhPubPem ∧
        encodeUtf8Of session.init.ecdsaPubPem = .ok built.ecdsaPubPem) ∧
      ∀ projects, verifyInit lib { session.init with projects } = verifyInit lib session.init := by
  obtain ⟨-, -, -, hsecret, pem', data, k, -, hverified⟩ := doHandshake_ok h
  have hsame : pem' = pem := Except.ok.inj (hverified.encoded.symm.trans hpem)
  subst hsame
  have hk : k = p.key := Except.ok.inj (hverified.loaded.symm.trans hkey)
  subst hk
  obtain ⟨built, hbuilt, rfl⟩ := built_of_verified hp hverified
  refine ⟨built, hbuilt, hverified.signed, fun hclean => ?_, fun _ => rfl⟩
  obtain ⟨id, ecdh, ecdsa, hid, hecdh, hecdsa, hjoin⟩ := signingData_bytes hverified.signed
  have hfields : [id, ecdh, ecdsa] = [built.agentId, built.ecdhPubPem, built.ecdsaPubPem] := by
    refine join_injective rfl ?_ (hjoin.symm.trans (holder_signingData built))
    simp [hclean.agentId, hclean.ecdhPubPem, hclean.ecdsaPubPem]
  simp only [List.cons.injEq, and_true] at hfields
  obtain ⟨rfl, rfl, rfl⟩ := hfields
  simp only [deriveSharedSecretPem, Python.bind_ok] at hsecret
  obtain ⟨_, hascii, -⟩ := hsecret
  obtain ⟨ecdhText, hecdhText, -⟩ := encodeAsciiOf_ok hascii
  obtain ⟨ecdsaText, hecdsaText, -⟩ := encodeUtf8Of_ok hpem
  refine ⟨hid, ?_, ?_⟩
  · rw [hecdhText] at hecdh ⊢
    exact CryptoCodec.utf8_ok.mpr hecdh
  · rw [hecdsaText] at hecdsa ⊢
    exact CryptoCodec.utf8_ok.mpr hecdsa

end Tamper

section Tampered

open Agent.Handshake (pemOf)

def initText (agentId : Str) (projects : List Str) (ecdhPubPem ecdsaPubPem : Str) (signature : Bytes) : Str :=
  dumps (.obj
    [(str "type", .str (str "HANDSHAKE_INIT")),
      (str "agent_id", .str agentId),
      (str "projects", .arr (projects.map .str)),
      (str "ecdh_pub_pem", .str ecdhPubPem),
      (str "ecdsa_pub_pem", .str ecdsaPubPem),
      (str "signature", .str (b64Encode signature))])

def sampleBuilt : Agent.Handshake.HandshakeInit where
  agentId := Agent.bytes (str "build|7")
  projects := [Agent.bytes (str "app")]
  ecdhPubPem := Agent.bytes (pemOf "ECDH")
  ecdsaPubPem := Agent.bytes (pemOf "Agent")
  signature := b64Encode [9]

def holderOf (built : Agent.Handshake.HandshakeInit) : Holder where
  key := ⟨fun signature data => signature == [9] && data == built.signingData⟩
  built := [built]
  messages := []

def malloryKey : PublicKey := ⟨fun signature _ => signature == [8]⟩

def libraryOf (built : Agent.Handshake.HandshakeInit) : Library where
  reprOf := fun _ => []
  loadPublicKey pem :=
    if Agent.bytes (pemOf "Agent") <:+ pem then .ok (holderOf built).key
    else if Agent.bytes (pemOf "Mallory") <:+ pem then .ok malloryKey
    else .error .valueError
  sha256 secret := List.replicate 32 (UInt8.ofNat secret.length)

theorem pem_space : ∀ name ∈ ["Agent", "Mallory"], 32 ∈ Agent.bytes (pemOf name) := by decide +kernel

theorem secure_holderOf (built : Agent.Handshake.HandshakeInit) : (holderOf built).Secure (libraryOf built) where
  unforgeable := fun signature data h => by
    simp only [holderOf, Bool.and_eq_true, beq_iff_eq] at h
    rw [h.2]
    exact List.mem_cons_self
  messages := nofun
  begins := fun pem k h => by
    simp only [libraryOf] at h
    split at h
    · rename_i hsuffix
      exact hsuffix.subset (pem_space "Agent" (by simp))
    · split at h
      · rename_i hsuffix
        exact hsuffix.subset (pem_space "Mallory" (by simp))
      · cases h

def sampleHolder : Holder := holderOf sampleBuilt

def sampleLibrary : Library := libraryOf sampleBuilt

def forwarderKey : PrivateKey := ⟨fun _ _ => [1], ⟨fun _ _ => false⟩⟩

def sampleLocal : Local where
  ecdh :=
    { publicKeyPem := pemOf "Forwarder ECDH"
      exchange := fun pem => if Agent.bytes (pemOf "ECDH") <:+ pem then .ok [5] else .error .valueError }
  signer := .ok forwarderKey
  fwdPubPem := .ok (pemOf "Forwarder")
  entropy := []
  sends := true

def genuineText : Str := initText (str "build|7") [str "app"] (pemOf "ECDH") (pemOf "Agent") [9]

-- The text up to the bar is the new agent_id, the rest of the old one stands in front of the key.
def shiftedText : Str := initText (str "build") [str "app"] (str "7|" ++ pemOf "ECDH") (pemOf "Agent") [9]

def otherProjectsText : Str := initText (str "build|7") [str "bank"] (pemOf "ECDH") (pemOf "Agent") [9]

def acceptedInit (raw : Str) : Option HandshakeInit :=
  (doHandshake sampleLibrary sampleLocal (some raw)).outcome.toOption.map (·.init)

theorem tampered_accepted :
    sampleHolder.Secure sampleLibrary ∧ sampleHolder.built = [sampleBuilt] ∧
      (acceptedInit shiftedText).map (fun init => (init.agentId, init.ecdhPubPem)) =
        some (.str (str "build"), .str (str "7|" ++ pemOf "ECDH")) ∧
      (acceptedInit otherProjectsText).map (·.projects) = some (.arr [.str (str "bank")]) ∧
      sampleBuilt.agentId ≠ Agent.bytes (str "build") ∧ sampleBuilt.projects ≠ [Agent.bytes (str "bank")] :=
  ⟨secure_holderOf _, rfl, by decide +kernel⟩

def cleanBuilt : Agent.Handshake.HandshakeInit := { sampleBuilt with agentId := Agent.bytes (str "build-7") }

def cleanText : Str := initText (str "build-7") [str "app"] (pemOf "ECDH") (pemOf "Agent") [9]

theorem cleanText_read :
    (124 ∉ cleanBuilt.agentId ∧ 124 ∉ cleanBuilt.ecdhPubPem ∧ 124 ∉ cleanBuilt.ecdsaPubPem) ∧
      (doHandshake (libraryOf cleanBuilt) sampleLocal (some cleanText)).outcome.toOption.map (·.init.ecdsaPubPem) =
        some (.str (pemOf "Agent")) ∧
      encodeUtf8Of (.str (pemOf "Agent")) = .ok (Agent.bytes (pemOf "Agent")) := by
  decide +kernel

theorem tamper_evident_cleanText :
    ∃ session, (doHandshake (libraryOf cleanBuilt) sampleLocal (some cleanText)).outcome = .ok session ∧
      encodeUtf8 (signingData (libraryOf cleanBuilt).reprOf session.init) = some cleanBuilt.signingData ∧
      encodeUtf8 (Python.strOf (libraryOf cleanBuilt).reprOf session.init.agentId) = some cleanBuilt.agentId ∧
      encodeUtf8Of session.init.ecdhPubPem = .ok cleanBuilt.ecdhPubPem ∧
      encodeUtf8Of session.init.ecdsaPubPem = .ok cleanBuilt.ecdsaPubPem ∧
      ∀ projects, verifyInit (libraryOf cleanBuilt) { session.init with projects } =
        verifyInit (libraryOf cleanBuilt) session.init := by
  obtain ⟨⟨hagentId, hecdhPem, hecdsaPem⟩, haccepted, hencode⟩ := cleanText_read
  obtain ⟨session, hsession, hpem⟩ := Option.map_eq_some_iff.mp haccepted
  have houtcome : (doHandshake (libraryOf cleanBuilt) sampleLocal (some cleanText)).outcome = .ok session := by
    cases hresult : (doHandshake (libraryOf cleanBuilt) sampleLocal (some cleanText)).outcome with
    | error e => simp [hresult, Except.toOption] at hsession
    | ok session' =>
        rw [hresult] at hsession
        cases hsession
        rfl
  obtain ⟨built, hbuilt, hsigned, hfields, hprojects⟩ :=
    tamper_evident (secure_holderOf cleanBuilt) houtcome (hpem ▸ hencode) (if_pos List.suffix_rfl)
  obtain rfl := List.mem_singleton.mp hbuilt
  obtain ⟨hid, hecdh, hecdsa⟩ := hfields ⟨hagentId, hecdhPem, hecdsaPem⟩
  exact ⟨session, houtcome, hsigned, hid, hecdh, hecdsa, hprojects⟩

end Tampered

end Ws.Handshake
