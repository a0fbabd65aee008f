import JdRelay.Base.Nested
import JdRelay.Ws.Dispatch
import JdRelay.Ws.HandshakeAnswer
import JdRelay.Ws.SameHandshake

namespace Ws.Establish
open Text Json Crypto Handshake ManualHandshake
open Agent (bytes)
open Agent.AgentMain (dumpString)
open Agent.Handshake (Config Attempt HandshakeAck sendInit connectAndHandshake)
open Agent.Transit (ReadsFlat Bio Signs)

structure KeyPair where
  signer : PrivateKey
  key : PublicKey
  signs : ∀ entropy data, key.verifies (signer.sign entropy data) data = true
  der : ∀ entropy data, (signer.sign entropy data).length ≤ 72

-- Two honest ends: each finds its own key files, and the two ephemeral ECDH keys give one secret.
structure Pair (lib : Agent.Handshake.Library) (flib : Library) (a : Attempt) (l : Local) where
  agentPem : Bytes
  agent : KeyPair
  agent_pem : agentPem ≠ []
  agent_file : a.pubFile = .ok agentPem
  agent_signer : a.privFile = .ok agent.signer ∧ a.privFileAgain = .ok agent.signer
  agent_loads : flib.loadPublicKey agentPem = .ok agent.key
  forwarderPem : Str
  forwarder : KeyPair
  forwarder_scalar : Scalar forwarderPem
  forwarder_file : l.fwdPubPem = .ok forwarderPem
  forwarder_signer : l.signer = .ok forwarder.signer
  forwarder_loads : lib.loadPublicKey (bytes forwarderPem) = some forwarder.key
  ecdh : Agent.Handshake.EcdhKeyExchange
  ecdhPem : Str
  secret : Bytes
  ecdh_drawn : a.ecdh = .ok ecdh
  ecdh_pem : encodeUtf8 ecdhPem = some ecdh.publicKeyPem
  ecdh_ascii : isAscii ecdhPem = true
  ecdh_scalar : Scalar l.ecdh.publicKeyPem
  exchanged : l.ecdh.exchange ecdh.publicKeyPem = .ok secret
  derived : ecdh.derive (bytes l.ecdh.publicKeyPem) = some secret
  hashed : flib.sha256 secret = lib.sha256 secret ∧ (lib.sha256 secret).length = 32

structure Joined (agent : Agent.Handshake.Session) (forwarder : Session) : Prop where
  secret : forwarder.sharedSecret = agent.sharedSecret
  size : agent.sharedSecret.length = 32
  agentSigns : Signs ⟨some agent.signer, none⟩ forwarder.verifier
  forwarderSigns : Signs ⟨some forwarder.signer, none⟩ agent.verifier

structure Registers (cfg : Config) (session : Session) : Prop where
  agentId : ∃ id, session.init.agentId = .str id ∧ encodeUtf8 id = some cfg.agentId
  projects : ∃ ps : List Str, session.init.projects = .arr (ps.map .str) ∧ ps.mapM encodeUtf8 = some cfg.projects

section Init

variable {lib : Agent.Handshake.Library} {cfg : Config} {a : Attempt}

theorem dumpString_ok {s : Bytes} {v : Value} (h : dumpString s = .ok v) : ∃ t, v = .str t ∧ encodeUtf8 t = some s := by
  unfold dumpString at h
  split at h
  · cases h
  · rename_i t ht
    exact ⟨t, (Except.ok.inj h).symm, encode_decode ht⟩

theorem dumpStrings_ok {ss : List Bytes} {vs : List Value} (h : ss.mapM dumpString = .ok vs) :
    ∃ ts : List Str, vs = ts.map .str ∧ ts.mapM encodeUtf8 = some ss := by
  induction ss generalizing vs with
  | nil =>
      cases h
      exact ⟨[], rfl, rfl⟩
  | cons s ss ih =>
      rw [List.mapM_cons] at h
      obtain ⟨v, hv, h⟩ := Python.bind_ok.mp h
      obtain ⟨rest, hrest, h⟩ := Python.bind_ok.mp h
      cases h
      obtain ⟨t, rfl, ht⟩ := dumpString_ok hv
      obtain ⟨ts, rfl, hts⟩ := ih hrest
      refine ⟨t :: ts, rfl, ?_⟩
      rw [List.mapM_cons, ht, hts]
      rfl

def initFields (id ecdhPem pem : Str) (projects : List Str) (signature : Str) : List (Str × Value) :=
  [(str "agent_id", .str id),
    (str "ecdh_pub_pem", .str ecdhPem),
    (str "ecdsa_pub_pem", .str pem),
    (str "projects", .arr (projects.map .str)),
    (str "signature", .str signature),
    (str "type", .str (str "HANDSHAKE_INIT"))]

theorem loads_initFields (id ecdhPem pem : Str) (projects : List Str) (signature : Str) :
    loads (dumpsWith .compact (.obj (initFields id ecdhPem pem projects signature))) =
      some (.obj (initFields id ecdhPem pem projects signature)) := by
  have text (s : Str) : Writable false (.str s) := .flat (.str (readable_false s))
  have list : Writable false (.arr (projects.map .str)) := .arr fun v hv => by
    obtain ⟨s, -, rfl⟩ := List.mem_map.mp hv
    exact text s
  refine loads_dumps_writable spaced_compact (.obj (fun f _ => readable_false f.1) fun f hf => ?_)
  simp only [initFields, List.mem_cons, List.not_mem_nil, or_false] at hf
  rcases hf with rfl | rfl | rfl | rfl | rfl | rfl
  · exact text _
  · exact text _
  · exact text _
  · exact list
  · exact text _
  · exact text _

structure Sends (lib : Agent.Handshake.Library) (cfg : Config) (agentPem : Bytes) (signer : PrivateKey) (entropy : Bytes)
    (ecdh : Agent.Handshake.EcdhKeyExchange) (text : Str) : Prop where
  sent : ∃ id ecdhPem pem projects data, encodeUtf8 id = some cfg.agentId ∧
    encodeUtf8 ecdhPem = some ecdh.publicKeyPem ∧ encodeUtf8 pem = some agentPem ∧
    projects.mapM encodeUtf8 = some cfg.projects ∧
    encodeUtf8 (id ++ str "|" ++ ecdhPem ++ str "|" ++ pem) = some data ∧
    text = dumpsWith .compact (.obj
      (initFields id ecdhPem pem projects (lib.ssl.base64Encode (signer.sign entropy data))))

theorem sends_of_sendInit {agentPem : Bytes} {signer : PrivateKey} {ecdh ecdh' : Agent.Handshake.EcdhKeyExchange} {text : Str}
    (hfile : a.pubFile = .ok agentPem) (hsigner : a.privFile = .ok signer) (hecdh : a.ecdh = .ok ecdh)
    (h : sendInit lib cfg a = .ok (ecdh', text)) : ecdh' = ecdh ∧ Sends lib cfg agentPem signer a.entropy ecdh text := by
  unfold sendInit at h
  split at h
  · cases h
  · simp only [Python.bind_ok, Agent.Handshake.raise_ok, hfile, hsigner, hecdh, Except.ok.injEq, exists_eq_left'] at h
    obtain ⟨text', htext, h⟩ := h
    split at h
    · cases h
    · cases h
      refine ⟨rfl, ?_⟩
      simp only [Agent.Handshake.HandshakeInit.toJson, Python.bind_ok] at htext
      obtain ⟨_, hidValue, _, hecdhValue, _, hpemValue, _, hlist, htext⟩ := htext
      obtain ⟨id, rfl, hid⟩ := dumpString_ok hidValue
      obtain ⟨ecdhPem, rfl, hecdhPem⟩ := dumpString_ok hecdhValue
      obtain ⟨pem, rfl, hpem⟩ := dumpString_ok hpemValue
      obtain ⟨projects, rfl, hprojects⟩ := dumpStrings_ok hlist
      have hbar : encodeUtf8 (str "|") = some (bytes (str "|")) := by decide
      have hdata : encodeUtf8 (id ++ str "|" ++ ecdhPem ++ str "|" ++ pem) =
          some (cfg.agentId ++ bytes (str "|") ++ ecdh.publicKeyPem ++ bytes (str "|") ++ agentPem) := by
        refine encodeUtf8_append.mpr ⟨_, _, ?_, hpem, rfl⟩
        refine encodeUtf8_append.mpr ⟨_, _, ?_, hbar, rfl⟩
        refine encodeUtf8_append.mpr ⟨_, _, ?_, hecdhPem, rfl⟩
        exact encodeUtf8_append.mpr ⟨_, _, hid, hbar, rfl⟩
      exact ⟨id, ecdhPem, pem, projects, _, hid, hecdhPem, hpem, hprojects, hdata, (Except.ok.inj htext).symm⟩

end Init

section Forwarder

variable {lib : Agent.Handshake.Library} {flib : Library} {a : Attempt} {l : Local} {cfg : Config} {limit : Nat}

theorem KeyPair.sign_lt (k : KeyPair) (hbio : Bio lib.ssl limit) (entropy data : Bytes) :
    (k.signer.sign entropy data).length < limit :=
  (k.der entropy data).trans_lt (lt_of_lt_of_le (by decide) hbio.atLeast)

theorem verifyInit_pair (p : Pair lib flib a l) (hbio : Bio lib.ssl limit) {id ecdhPem pem : Str} (projects : List Str)
    (entropy : Bytes) {data : Bytes} (hpem : encodeUtf8 pem = some p.agentPem)
    (hdata : encodeUtf8 (id ++ str "|" ++ ecdhPem ++ str "|" ++ pem) = some data) :
    verifyInit flib (ofFields (initFields id ecdhPem pem projects (lib.ssl.base64Encode (p.agent.signer.sign entropy data)))) =
      .ok (⟨none, some p.agent.key⟩, true) := by
  have hkey : fromPublicKeyData flib p.agentPem = .ok ⟨none, some p.agent.key⟩ := by
    rw [fromPublicKeyData, if_neg p.agent_pem, p.agent_loads]
    rfl
  have hsignature : CryptoCodec.b64Field (.str (lib.ssl.base64Encode (p.agent.signer.sign entropy data))) =
      .ok (p.agent.signer.sign entropy data) :=
    Agent.Interop.b64Field_str.mpr (Agent.Transit.coded_bio hbio (p.agent.sign_lt hbio _ _)).py
  generalize hfields : initFields id ecdhPem pem projects (lib.ssl.base64Encode (p.agent.signer.sign entropy data)) = fields
  have hpemField : encodeUtf8Of (ofFields fields).ecdsaPubPem = .ok p.agentPem := hfields ▸ CryptoCodec.utf8_ok.mpr hpem
  have hsignatureField : CryptoCodec.b64Field (ofFields fields).signature = .ok (p.agent.signer.sign entropy data) :=
    hfields ▸ hsignature
  have hdataField : CryptoCodec.utf8 (signingData flib.reprOf (ofFields fields)) = .ok data :=
    hfields ▸ CryptoCodec.utf8_ok.mpr hdata
  simp only [verifyInit, hpemField, hsignatureField, hdataField, raise, bind, Except.bind, hkey, EcdsaSigner.verify,
    p.agent.signs]

theorem answer_pair (p : Pair lib flib a l) (init : HandshakeInit) (verifier : EcdsaSigner)
    (hinit : init.ecdhPubPem = .str p.ecdhPem) : ∃ data,
      encodeUtf8 (l.ecdh.publicKeyPem ++ str "|" ++ p.forwarderPem) = some data ∧
      answer flib l init verifier = .ok ({ init, sharedSecret := lib.sha256 p.secret, signer := p.forwarder.signer, verifier },
        ackJson l.ecdh.publicKeyPem p.forwarderPem (p.forwarder.signer.sign l.entropy data)) := by
  have hscalar := (p.ecdh_scalar.append (scalar_str "|")).append p.forwarder_scalar
  obtain ⟨data, hdata⟩ := Option.isSome_iff_exists.mp (scalar_iff.mpr hscalar)
  refine ⟨data, hdata, ?_⟩
  have hpem : encodeAsciiOf init.ecdhPubPem = .ok p.ecdh.publicKeyPem := by
    rw [hinit, encodeAsciiOf, if_pos p.ecdh_ascii]
    exact CryptoCodec.utf8_ok.mpr p.ecdh_pem
  have hsecret : deriveSharedSecretPem flib l.ecdh init.ecdhPubPem = .ok (lib.sha256 p.secret) := by
    rw [deriveSharedSecretPem, hpem, ← p.hashed.1]
    change (l.ecdh.exchange p.ecdh.publicKeyPem >>= fun rawSecret => Except.ok (flib.sha256 rawSecret)) = _
    rw [p.exchanged]
    rfl
  have hutf8 : CryptoCodec.utf8 (l.ecdh.publicKeyPem ++ str "|" ++ p.forwarderPem) = .ok data :=
    CryptoCodec.utf8_ok.mpr hdata
  simp only [answer, hsecret, p.forwarder_signer, p.forwarder_file, raise, bind, Except.bind, hutf8]

theorem forwarder_accepts (p : Pair lib flib a l) (hbio : Bio lib.ssl limit) (hsends : l.sends = true) {text : Str}
    (h : Sends lib cfg p.agentPem p.agent.signer a.entropy p.ecdh text) : ∃ fields session ack data,
      Typed text fields ∧ Handshakes flib l fields session ack ∧ Registers cfg session ∧
      session.sharedSecret = lib.sha256 p.secret ∧ session.signer = p.forwarder.signer ∧
      session.verifier = ⟨none, some p.agent.key⟩ ∧
      encodeUtf8 (l.ecdh.publicKeyPem ++ str "|" ++ p.forwarderPem) = some data ∧
      ack = ackJson l.ecdh.publicKeyPem p.forwarderPem (p.forwarder.signer.sign l.entropy data) := by
  obtain ⟨id, ecdhPem, pem, projects, signed, hid, hecdhPem, hpem, hprojects, hsigned, rfl⟩ := h.sent
  obtain rfl : ecdhPem = p.ecdhPem := encode_injective hecdhPem p.ecdh_pem
  have hverify := verifyInit_pair p hbio projects a.entropy hpem hsigned
  generalize hsignature : lib.ssl.base64Encode (p.agent.signer.sign a.entropy signed) = signature at hverify
  obtain ⟨data, hdata, hanswer⟩ := answer_pair p (ofFields (initFields id p.ecdhPem pem projects signature))
    ⟨none, some p.agent.key⟩ rfl
  have hcomplete : Complete (initFields id p.ecdhPem pem projects signature) := complete_iff.mpr ⟨rfl, rfl, rfl, rfl, rfl⟩
  exact ⟨_, _, _, data, ⟨loads_initFields id p.ecdhPem pem projects signature, rfl⟩,
    ⟨hcomplete, ⟨_, hverify, hanswer⟩, hsends⟩, ⟨⟨id, rfl, hid⟩, projects, rfl, hprojects⟩, rfl, rfl, rfl, hdata, rfl⟩

end Forwarder

section Agent

variable {lib : Agent.Handshake.Library} {flib : Library} {a : Attempt} {l : Local} {cfg : Config} {limit : Nat}

theorem agent_accepts (p : Pair lib flib a l) (hbio : Bio lib.ssl limit) (hjson : ReadsFlat lib.nl) {data reply : Bytes} {text : Str}
    (hsend : sendInit lib cfg a = .ok (p.ecdh, text))
    (hdata : encodeUtf8 (l.ecdh.publicKeyPem ++ str "|" ++ p.forwarderPem) = some data)
    (hreply : encodeUtf8 (ackJson l.ecdh.publicKeyPem p.forwarderPem (p.forwarder.signer.sign l.entropy data)) = some reply) :
    ∃ session, connectAndHandshake lib cfg { a with reply := some reply } = .ok (some session) ∧
      session.sharedSecret = lib.sha256 p.secret ∧ session.signer = p.agent.signer ∧
      session.verifier = ⟨none, some p.forwarder.key⟩ := by
  obtain ⟨ack, hread, hstatus, hecdh, hpem, hsignature⟩ : ∃ ack, HandshakeAck.fromJson lib.nl reply = .ok ack ∧
      ack.status = str "OK" ∧ ack.ecdhPubPem = l.ecdh.publicKeyPem ∧ ack.ecdsaPubPem = p.forwarderPem ∧
      ack.signature = b64Encode (p.forwarder.signer.sign l.entropy data) :=
    ⟨_, HandshakeAnswer.fromJson_ack hjson p.ecdh_scalar p.forwarder_scalar hreply, rfl, rfl, rfl, rfl⟩
  have hsigned : bytes ack.signingData = data := by
    rw [HandshakeAck.signingData, hecdh, hpem, bytes, hdata, Option.getD_some]
  have hverifies : Agent.Handshake.verifies lib p.forwarder.key ack = true := by
    have hsmall := (p.forwarder.der l.entropy data).trans (by decide : 72 ≤ 1585834077)
    rw [Agent.Handshake.verifies, hsigned, hsignature, (Agent.Transit.Coded.lines _).cpp hbio hsmall, p.forwarder.signs]
  have hsecret : Agent.Handshake.deriveSharedSecretPem lib p.ecdh (bytes ack.ecdhPubPem) = lib.sha256 p.secret := by
    rw [Agent.Handshake.deriveSharedSecretPem, hecdh, p.derived]
  have hsize : (Agent.Handshake.deriveSharedSecretPem lib p.ecdh (bytes ack.ecdhPubPem)).length = 32 := by
    rw [hsecret, p.hashed.2]
  have hload : lib.loadPublicKey (bytes ack.ecdsaPubPem) = some p.forwarder.key := by rw [hpem, p.forwarder_loads]
  have haccept := Agent.Handshake.acceptAck_ok.mpr
    ⟨p.forwarder.key, p.agent.signer, hstatus, hload, hverifies, p.agent_signer.2, hsize, rfl⟩
  have hsame : sendInit lib cfg { a with reply := some reply } = .ok (p.ecdh, text) := hsend
  refine ⟨⟨_, p.agent.signer, ⟨none, some p.forwarder.key⟩, ack⟩, ?_, hsecret, rfl, rfl⟩
  simp only [connectAndHandshake, hsame, Agent.Handshake.readAck, hread, bind, Except.bind]
  exact haccept

theorem joined_of_keys {p : Pair lib flib a l} {agent : Agent.Handshake.Session} {forwarder : Session}
    (hagent : agent.sharedSecret = lib.sha256 p.secret ∧ agent.signer = p.agent.signer ∧
      agent.verifier = ⟨none, some p.forwarder.key⟩)
    (hforwarder : forwarder.sharedSecret = lib.sha256 p.secret ∧ forwarder.signer = p.forwarder.signer ∧
      forwarder.verifier = ⟨none, some p.agent.key⟩) : Joined agent forwarder where
  secret := hforwarder.1.trans hagent.1.symm
  size := hagent.1 ▸ p.hashed.2
  agentSigns := by
    rw [hforwarder.2.2, hagent.2.1]
    exact ⟨p.agent.signs, p.agent.der⟩
  forwarderSigns := by
    rw [hagent.2.2, hforwarder.2.1]
    exact ⟨p.forwarder.signs, p.forwarder.der⟩

structure OwnKeys (lib : Agent.Handshake.Library) (flib : Library) (a : Attempt) (l : Local)
    (agent : Agent.Handshake.Session) (forwarder : Session) : Prop where
  agentSigner : a.privFile = .ok agent.signer
  forwarderSigner : l.signer = .ok forwarder.signer
  agentVerifier : ∃ pem k, l.fwdPubPem = .ok pem ∧ lib.loadPublicKey (bytes pem) = some k ∧ agent.verifier = ⟨none, some k⟩
  forwarderVerifier : ∃ pem k, a.pubFile = .ok pem ∧ flib.loadPublicKey pem = .ok k ∧ forwarder.verifier = ⟨none, some k⟩

structure Established (lib : Agent.Handshake.Library) (flib : Library) (cfg : Config) (a : Attempt) (l : Local) (text : Str)
    (agent : Agent.Handshake.Session) (forwarder : Session) : Prop where
  answered : ∃ ack reply, doHandshake flib l (some text) = ⟨.ok forwarder, [ack]⟩ ∧ encodeUtf8 ack = some reply ∧
    connectAndHandshake lib cfg { a with reply := some reply } = .ok (some agent) ∧
    ∀ data, encodeUtf8 text = some data → reply.length < 65536 → handshake flib l data = .done forwarder ack
  joined : Joined agent forwarder
  keys : OwnKeys lib flib a l agent forwarder
  registers : Registers cfg forwarder

theorem established_of_pair (p : Pair lib flib a l) (hbio : Bio lib.ssl limit) (hjson : ReadsFlat lib.nl) (hsends : l.sends = true)
    {ecdh : Agent.Handshake.EcdhKeyExchange} {text : Str} (hsend : sendInit lib cfg a = .ok (ecdh, text)) :
    ∃ agent forwarder, Established lib flib cfg a l text agent forwarder := by
  obtain ⟨rfl, hsent⟩ := sends_of_sendInit p.agent_file p.agent_signer.1 p.ecdh_drawn hsend
  obtain ⟨fields, forwarder, ack, data, htyped, hshakes, hregisters, hsecret, hsigner, hverifier, hdata, rfl⟩ :=
    forwarder_accepts p hbio hsends hsent
  have hscalar : Scalar (ackJson l.ecdh.publicKeyPem p.forwarderPem (p.forwarder.signer.sign l.entropy data)) := by
    have hsignature := Agent.Transit.scalar_b64Encode (p.forwarder.signer.sign l.entropy data)
    refine Dispatch.scalar_object fun f hf => ?_
    simp only [List.mem_cons, List.not_mem_nil, or_false] at hf
    rcases hf with rfl | rfl | rfl | rfl | rfl
    · exact ⟨_, rfl, scalar_str _, scalar_str _⟩
    · exact ⟨_, rfl, scalar_str _, scalar_str _⟩
    · exact ⟨_, rfl, p.ecdh_scalar, scalar_str _⟩
    · exact ⟨_, rfl, p.forwarder_scalar, scalar_str _⟩
    · exact ⟨_, rfl, hsignature, scalar_str _⟩
  obtain ⟨reply, hreply⟩ := Option.isSome_iff_exists.mp (scalar_iff.mpr hscalar)
  obtain ⟨agent, hconnect, hagent⟩ := agent_accepts p hbio hjson hsend hdata hreply
  exact ⟨agent, forwarder,
    { answered := ⟨_, reply, doHandshake_of_typed htyped hshakes, hreply, hconnect, fun initRaw hraw hshort =>
        handshake_done.mpr ⟨fields, SameHandshake.typed_loadsBytes hraw htyped, hshakes, reply, hreply, hshort⟩⟩
      joined := joined_of_keys hagent ⟨hsecret, hsigner, hverifier⟩
      keys :=
        { agentSigner := hagent.2.1 ▸ p.agent_signer.1
          forwarderSigner := hsigner ▸ p.forwarder_signer
          agentVerifier := ⟨_, _, p.forwarder_file, p.forwarder_loads, hagent.2.2⟩
          forwarderVerifier := ⟨_, _, p.agent_file, p.agent_loads, hverifier⟩ }
      registers := hregisters }⟩

theorem handshake_completes_iff (p : Pair lib flib a l) (hbio : Bio lib.ssl limit) (hjson : ReadsFlat lib.nl)
    {ecdh : Agent.Handshake.EcdhKeyExchange} {text : Str} (hsend : sendInit lib cfg a = .ok (ecdh, text)) :
    (∃ agent forwarder, Established lib flib cfg a l text agent forwarder) ↔ l.sends = true := by
  constructor
  · rintro ⟨agent, forwarder, h⟩
    obtain ⟨ack, reply, hshakes, -⟩ := h.answered
    have houtcome : (doHandshake flib l (some text)).outcome = .ok forwarder := congrArg Result.outcome hshakes
    obtain ⟨-, -, -, -, -, -, -, -, hsends⟩ := answered_of_doHandshake houtcome
    exact hsends
  · exact fun hsends => established_of_pair p hbio hjson hsends hsend

end Agent

section Sample

open Agent.Handshake (sampleDeployment sampleConfig sampleAttempt sampleKey keyOf signatureOf pemOf)

def sampleAgent : Agent.Handshake.Library :=
  { sampleDeployment.lib with nl := Agent.Interop.sampleNl, ssl := Agent.Interop.sampleSsl }

def sampleForwarder : Library where
  reprOf := fun _ => []
  loadPublicKey := fun _ => .ok (keyOf 3)
  sha256 := sampleAgent.sha256

def keysOf (id : UInt8) : KeyPair where
  signer := ⟨fun _ data => signatureOf id data, keyOf id⟩
  key := keyOf id
  signs := fun _ _ => beq_self_eq_true _
  der := fun _ _ => (by decide : 2 ≤ 72)

def sampleLocal : Local where
  ecdh := { publicKeyPem := pemOf "Forwarder ECDH", exchange := fun _ => .ok (bytes (pemOf "Forwarder ECDH")) }
  signer := .ok (keysOf 1).signer
  fwdPubPem := .ok (pemOf "Forwarder")
  entropy := []
  sends := true

def samplePair : Pair sampleAgent sampleForwarder (sampleAttempt []) sampleLocal where
  agentPem := [107]
  agent := keysOf 3
  agent_pem := List.cons_ne_nil _ _
  agent_file := rfl
  agent_signer := ⟨rfl, rfl⟩
  agent_loads := rfl
  forwarderPem := pemOf "Forwarder"
  forwarder := keysOf 1
  forwarder_scalar := by decide +kernel
  forwarder_file := rfl
  forwarder_signer := rfl
  forwarder_loads := Agent.Handshake.sample_wellFormed.loads
  ecdh := ⟨[101], some⟩
  ecdhPem := str "e"
  secret := bytes (pemOf "Forwarder ECDH")
  ecdh_drawn := rfl
  ecdh_pem := by decide
  ecdh_ascii := by decide
  ecdh_scalar := by decide +kernel
  exchanged := rfl
  derived := rfl
  hashed := ⟨rfl, List.length_replicate⟩

theorem sample_sends : ∃ sent, sendInit sampleAgent sampleConfig (sampleAttempt []) = .ok sent := by
  have hok : (sendInit sampleAgent sampleConfig (sampleAttempt [])).toOption.isSome = true := by decide +kernel
  cases hsend : sendInit sampleAgent sampleConfig (sampleAttempt []) with
  | error e => simp [hsend, Except.toOption] at hok
  | ok sent => exact ⟨sent, rfl⟩

theorem handshake_completes_sample : ∃ text, (∃ agent forwarder,
    Established sampleAgent sampleForwarder sampleConfig (sampleAttempt []) sampleLocal text agent forwarder) ↔
      sampleLocal.sends = true := by
  obtain ⟨⟨ecdh, text⟩, hsend⟩ := sample_sends
  exact ⟨text, handshake_completes_iff samplePair Agent.Transit.sample_bio Agent.Transit.sample_readsFlat hsend⟩

end Sample

end Ws.Establish
