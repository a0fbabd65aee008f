import JdRelay.Agent.Transit
import JdRelay.Ws.Handshake
import JdRelay.Ws.Sending

namespace Ws.HandshakeAnswer
open Text Json Crypto Handshake
open Agent (Nlohmann)
open Agent.Handshake (HandshakeAck Config Attempt sendInit connectAndHandshake textAt contains sampleConfig
  sampleAttempt)
open Agent.Transit (ReadsFlat Wire)

inductive Answer where
  | ok (ecdhPubPem fwdPubPem : Str) (sig : Bytes)
  | error (text : String)

namespace Answer

-- The keys of an OK answer are signed as UTF-8 before they are written.
def json : Answer → Except Python.Error Str
  | .ok ecdhPubPem fwdPubPem sig => do
      let _ ← CryptoCodec.utf8 (ecdhPubPem ++ str "|" ++ fwdPubPem)
      .ok (ackJson ecdhPubPem fwdPubPem sig)
  | .error text => .ok (errorJson text)

def expected : Answer → HandshakeAck
  | .ok ecdhPubPem fwdPubPem sig =>
      { status := str "OK", error := [], ecdhPubPem, ecdsaPubPem := fwdPubPem, signature := b64Encode sig }
  | .error text =>
      { status := str "ERROR", error := str text, ecdhPubPem := [], ecdsaPubPem := [], signature := [] }

def Accepts : Answer → Prop
  | .ok .. => True
  | .error _ => False

end Answer

def emitted (server : Sending.Server) (answer : Answer) : Option Bytes := do
  let text ← answer.json.toOption
  let data ← encodeUtf8 text
  match server with
  | .agentHandler => some data
  | .manualServer => (Sending.sendFrame data .text).map fun _ => data

def ackFields (ecdhPubPem fwdPubPem : Str) (sig : Bytes) : List (Str × Value) :=
  [(str "type", .str (str "HANDSHAKE_ACK")),
    (str "status", .str (str "OK")),
    (str "ecdh_pub_pem", .str ecdhPubPem),
    (str "ecdsa_pub_pem", .str fwdPubPem),
    (str "signature", .str (b64Encode sig))]

def errorFields (text : String) : List (Str × Value) :=
  [(str "type", .str (str "HANDSHAKE_ACK")),
    (str "status", .str (str "ERROR")),
    (str "error", .str (str text))]

structure ReadByAgent (lib : Agent.Handshake.Library) (answer : Answer) (data : Bytes) : Prop where
  parsed : HandshakeAck.fromJson lib.nl data = .ok answer.expected
  rejected : answer.expected.status ≠ str "OK" → ∀ (cfg : Config) (a : Attempt), a.reply = some data →
    (∃ sent, sendInit lib cfg a = .ok sent) → connectAndHandshake lib cfg a = .ok none

section Emitted

variable {server : Sending.Server} {answer : Answer} {data : Bytes}

theorem emitted_text (h : emitted server answer = some data) :
    ∃ text, answer.json = .ok text ∧ encodeUtf8 text = some data := by
  simp only [emitted, Option.bind_eq_bind, Option.bind_eq_some_iff] at h
  obtain ⟨text, htext, data', hdata, h⟩ := h
  have hjson : answer.json = .ok text := by
    cases hjson : answer.json with
    | error e => simp [hjson, Except.toOption] at htext
    | ok text' =>
        rw [hjson] at htext
        exact congrArg Except.ok (Option.some.inj htext)
  have hsame : data' = data := by
    cases server with
    | agentHandler => exact Option.some.inj h
    | manualServer =>
        obtain ⟨-, -, rfl⟩ := Option.map_eq_some_iff.mp h
        rfl
  exact ⟨text, hjson, hsame ▸ hdata⟩

theorem json_ok {ecdhPubPem fwdPubPem text : Str} {sig : Bytes}
    (h : (Answer.ok ecdhPubPem fwdPubPem sig).json = .ok text) :
    text = ackJson ecdhPubPem fwdPubPem sig ∧ Scalar ecdhPubPem ∧ Scalar fwdPubPem := by
  simp only [Answer.json, Python.bind_ok, CryptoCodec.utf8_ok] at h
  obtain ⟨signed, hsigned, h⟩ := h
  have hscalar : Scalar (ecdhPubPem ++ str "|" ++ fwdPubPem) :=
    scalar_iff.mp (Option.isSome_iff_exists.mpr ⟨signed, hsigned⟩)
  refine ⟨(Except.ok.inj h).symm, fun p hp => hscalar p ?_, fun p hp => hscalar p ?_⟩
  · exact List.mem_append_left _ (List.mem_append_left _ hp)
  · exact List.mem_append_right _ hp

end Emitted

section Read

variable {nl : Nlohmann} {data : Bytes}

theorem loadable_str {key : String} {s : Str} (hs : Scalar s) : Loadable .standard (str key, .str s) :=
  ⟨fun _ => scalar_str key, .str fun _ => hs⟩

theorem parse_texts {fields : List (Str × Value)} (hjson : ReadsFlat nl) (hne : fields ≠ [])
    (htexts : ∀ f ∈ fields, ∃ key s, f = (str key, .str s) ∧ Scalar s)
    (hdata : encodeUtf8 (dumps (.obj fields)) = some data) :
    ∃ fields', nl.parse data = some (.obj fields') ∧ ∀ key, lookup? fields' key = lookup? fields key := by
  have hloads : loads (dumps (.obj fields)) = some (.obj fields) := by
    refine loads_dumpsWith spaced_standard hne fun f hf => ?_
    obtain ⟨key, s, rfl, hs⟩ := htexts f hf
    exact loadable_str hs
  refine hjson.reads hdata hloads (fun f hf => ?_) fun f hf => ?_
  · obtain ⟨key, s, rfl, -⟩ := htexts f hf
    exact scalar_str key
  · obtain ⟨key, s, rfl, hs⟩ := htexts f hf
    exact .str hs

section Fields

variable {fields : List (Str × Value)} {key : String}

theorem textAt_some {s : Str} (h : lookup? fields (str key) = some (.str s)) : textAt key (.obj fields) = .ok s := by
  simp only [textAt, Agent.Handshake.atKey, h]
  rfl

theorem textAt_none (h : lookup? fields (str key) = none) :
    textAt key (.obj fields) = .error (.outOfRange (str key)) := by
  simp only [textAt, Agent.Handshake.atKey, h]
  rfl

theorem contains_eq {found : Option Value} (h : lookup? fields (str key) = found) :
    contains key (.obj fields) = found.isSome := congrArg Option.isSome h

theorem fromJson_parsed (h : nl.parse data = some (.obj fields)) :
    HandshakeAck.fromJson nl data = HandshakeAck.ofJson (.obj fields) := by
  rw [HandshakeAck.fromJson, Nlohmann.parsed, h]
  rfl

end Fields

theorem fromJson_ack (hjson : ReadsFlat nl) {ecdhPubPem fwdPubPem : Str} {sig : Bytes} (hecdh : Scalar ecdhPubPem)
    (hfwd : Scalar fwdPubPem) (hdata : encodeUtf8 (ackJson ecdhPubPem fwdPubPem sig) = some data) :
    HandshakeAck.fromJson nl data = .ok (Answer.ok ecdhPubPem fwdPubPem sig).expected := by
  have htexts : ∀ f ∈ ackFields ecdhPubPem fwdPubPem sig, ∃ key s, f = (str key, .str s) ∧ Scalar s := by
    have hsig := Agent.Transit.scalar_b64Encode sig
    intro f hf
    simp only [ackFields, List.mem_cons, List.not_mem_nil, or_false] at hf
    rcases hf with rfl | rfl | rfl | rfl | rfl
    · exact ⟨"type", _, rfl, scalar_str _⟩
    · exact ⟨"status", _, rfl, scalar_str _⟩
    · exact ⟨"ecdh_pub_pem", _, rfl, hecdh⟩
    · exact ⟨"ecdsa_pub_pem", _, rfl, hfwd⟩
    · exact ⟨"signature", _, rfl, hsig⟩
  obtain ⟨fields, hparse, hlook⟩ := parse_texts hjson (List.cons_ne_nil _ _) htexts hdata
  have hstatus : textAt "status" (.obj fields) = .ok (str "OK") := textAt_some (hlook _)
  have herror : contains "error" (.obj fields) = false := contains_eq (hlook _)
  have hecdhField : textAt "ecdh_pub_pem" (.obj fields) = .ok ecdhPubPem := textAt_some (hlook _)
  have hfwdField : textAt "ecdsa_pub_pem" (.obj fields) = .ok fwdPubPem := textAt_some (hlook _)
  have hsigField : textAt "signature" (.obj fields) = .ok (b64Encode sig) := textAt_some (hlook _)
  rw [fromJson_parsed hparse, HandshakeAck.ofJson, hstatus, herror, hecdhField, hfwdField, hsigField]
  rfl

-- The key that only an OK answer has is read with at.
theorem fromJson_error (hjson : ReadsFlat nl) {text : String} (hdata : encodeUtf8 (errorJson text) = some data) :
    HandshakeAck.fromJson nl data = .error (.outOfRange (str "ecdh_pub_pem")) := by
  have htexts : ∀ f ∈ errorFields text, ∃ key s, f = (str key, .str s) ∧ Scalar s := by
    intro f hf
    simp only [errorFields, List.mem_cons, List.not_mem_nil, or_false] at hf
    rcases hf with rfl | rfl | rfl
    · exact ⟨"type", _, rfl, scalar_str _⟩
    · exact ⟨"status", _, rfl, scalar_str _⟩
    · exact ⟨"error", _, rfl, scalar_str _⟩
  obtain ⟨fields, hparse, hlook⟩ := parse_texts hjson (List.cons_ne_nil _ _) htexts hdata
  have hstatus : textAt "status" (.obj fields) = .ok (str "ERROR") := textAt_some (hlook _)
  have hcontains : contains "error" (.obj fields) = true := contains_eq (hlook _)
  have herror : textAt "error" (.obj fields) = .ok (str text) := textAt_some (hlook _)
  have hecdh : textAt "ecdh_pub_pem" (.obj fields) = .error (.outOfRange (str "ecdh_pub_pem")) := textAt_none (hlook _)
  rw [fromJson_parsed hparse, HandshakeAck.ofJson, hstatus, hcontains, herror, hecdh]
  rfl

end Read

theorem connect_error {lib : Agent.Handshake.Library} (hjson : ReadsFlat lib.nl) {text : String} {data : Bytes}
    (hdata : encodeUtf8 (errorJson text) = some data) {cfg : Config} {a : Attempt} (hreply : a.reply = some data)
    (hsend : ∃ sent, sendInit lib cfg a = .ok sent) :
    connectAndHandshake lib cfg a = .error (.outOfRange (str "ecdh_pub_pem")) := by
  obtain ⟨⟨ecdh, sent⟩, hsend⟩ := hsend
  rw [connectAndHandshake, hsend, Agent.Handshake.readAck, hreply]
  change (HandshakeAck.fromJson lib.nl data >>= fun ack => Agent.Handshake.acceptAck lib ecdh a.privFileAgain ack) = _
  rw [fromJson_error hjson hdata]
  rfl

theorem answer_read_iff {lib : Agent.Handshake.Library} (hjson : ReadsFlat lib.nl) {server : Sending.Server}
    {answer : Answer} {data : Bytes} (h : emitted server answer = some data) :
    ReadByAgent lib answer data ↔ answer.Accepts := by
  obtain ⟨text, htext, hdata⟩ := emitted_text h
  cases answer with
  | ok ecdhPubPem fwdPubPem sig =>
      obtain ⟨rfl, hecdh, hfwd⟩ := json_ok htext
      exact iff_of_true ⟨fromJson_ack hjson hecdh hfwd hdata, fun hne => absurd rfl hne⟩ trivial
  | error error =>
      cases htext
      refine iff_of_false (fun hread => ?_) id
      cases hread.parsed.symm.trans (fromJson_error hjson hdata)

section Sample

def sampleAgent : Agent.Handshake.Library := { Agent.Handshake.sampleDeployment.lib with nl := Agent.Interop.sampleNl }

theorem sampleAgent_readsFlat : ReadsFlat sampleAgent.nl := Agent.Transit.sample_readsFlat

def rejection : Answer := .error "Signature verification failed"

theorem rejection_emitted (server : Sending.Server) : ∃ data, emitted server rejection = some data := by
  have hsome : (emitted server rejection).isSome = true := by cases server <;> decide +kernel
  exact Option.isSome_iff_exists.mp hsome

theorem rejection_sends (reply : Bytes) : ∃ sent, sendInit sampleAgent sampleConfig
    (sampleAttempt reply) = .ok sent := by
  have hsame : sendInit sampleAgent sampleConfig (sampleAttempt reply) =
      sendInit sampleAgent sampleConfig (sampleAttempt []) := rfl
  have hok : (sendInit sampleAgent sampleConfig
      (sampleAttempt [])).toOption.isSome = true := by decide +kernel
  rw [hsame]
  cases hsend : sendInit sampleAgent sampleConfig (sampleAttempt []) with
  | error e => simp [hsend, Except.toOption] at hok
  | ok sent => exact ⟨sent, rfl⟩

-- The agent has said what it wanted to say; the answer throws out of the call.
theorem rejection_throws : ∃ data, emitted .agentHandler rejection = some data ∧
    HandshakeAck.fromJson sampleAgent.nl data = .error (.outOfRange (str "ecdh_pub_pem")) ∧
    connectAndHandshake sampleAgent sampleConfig (sampleAttempt data) =
      .error (.outOfRange (str "ecdh_pub_pem")) ∧
    ¬ ReadByAgent sampleAgent rejection data := by
  obtain ⟨data, hdata⟩ := rejection_emitted .agentHandler
  obtain ⟨text, htext, hutf8⟩ := emitted_text hdata
  cases htext
  have hthrows := fromJson_error sampleAgent_readsFlat hutf8
  have hconnect : connectAndHandshake sampleAgent sampleConfig (sampleAttempt data) =
      .error (.outOfRange (str "ecdh_pub_pem")) :=
    connect_error sampleAgent_readsFlat hutf8 rfl (rejection_sends data)
  exact ⟨data, hdata, hthrows, hconnect, fun hread => by cases hread.parsed.symm.trans hthrows⟩

theorem answer_read_iff_rejection : ∃ data, emitted .manualServer rejection = some data ∧
    (ReadByAgent sampleAgent rejection data ↔ rejection.Accepts) := by
  obtain ⟨data, hdata⟩ := rejection_emitted .manualServer
  exact ⟨data, hdata, answer_read_iff sampleAgent_readsFlat hdata⟩

end Sample

end Ws.HandshakeAnswer
