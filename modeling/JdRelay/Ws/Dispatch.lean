import JdRelay.Base.Runs
import JdRelay.Base.Worker
import JdRelay.Ws.IoLoop

namespace Ws.Dispatch
open Text Json Crypto Runs IoLoop
open Agent (bytes Exn)
open Agent.Interop (Sealed PyAccepts embed)
open Agent.Transit (AesGcm Seals Opens Der Keyed Held Bio ReadsFlat Drawn Int64 Written Genuine)

structure Sent where
  type : MessageType
  payload : Str
  msgId : Str
  text : Str

-- What clock, random source and socket give while a message is sent.
structure Readings where
  now : Int
  draws : Draws
  written : Bool
  drawn : Drawn draws
  int64 : Int64 now

def Readings.cpp (r : Readings) : Agent.WsClient.Readings where
  now₁ := r.now
  now₂ := r.now
  now₃ := r.now
  draws := r.draws
  written := r.written
  iv_size := r.drawn.ivSize

def Readings.py (r : Readings) : Sending.Readings := ⟨r.now, r.draws, r.written⟩

def Readings.sent (r : Readings) (type : MessageType) (payload text : Str) : Sent :=
  ⟨type, payload, generateUuid r.draws.uuid, text⟩

-- failed is set where an exception has left the loop.
structure Party (C P : Type) where
  codec : C
  worker : Worker Sent (Action P)
  sent : List Sent
  failed : Bool

namespace Party

variable {C P : Type}

def start (codec : C) : Party C P := ⟨codec, .fresh, [], false⟩

def take (p : Party C P) (codec : C) (m : Sent) (actions : List (Action P)) : Party C P :=
  { p with codec, worker := p.worker.take m actions }

def finish (p : Party C P) (a : Action P) (rest : List (Action P)) : Party C P :=
  { p with worker := p.worker.finish a rest }

def put (p : Party C P) (ms : List Sent) : Party C P := { p with sent := p.sent ++ ms }

def fail (p : Party C P) : Party C P := { p with failed := true }

end Party

structure State where
  agent : Party Agent.CryptoCodec Bytes
  forwarder : Party CryptoCodec Str
  toAgent : List Sent
  toForwarder : List Sent

structure Session where
  reprOf : Value → Str
  client : Agent.WsClient.Client
  hasMessageCb : Bool
  agentCodec : Agent.CryptoCodec
  forwarderCodec : CryptoCodec

inductive Event where
  | agentSends (r : Readings) (type : MessageType) (payload : Str)
  | agentTakes (now₁ now₂ : Int)
  | agentActs (r : Readings)
  | forwarderSends (r : Readings) (type : MessageType) (payload : Str)
  | forwarderTakes (now₁ now₂ : Int)
  | forwarderActs (r : Readings)

def State.agentPuts (s : State) (ms : List Sent) : State :=
  { s with agent := s.agent.put ms, toForwarder := s.toForwarder ++ ms }

def State.forwarderPuts (s : State) (ms : List Sent) : State :=
  { s with forwarder := s.forwarder.put ms, toAgent := s.toAgent ++ ms }

namespace Session

variable (d : Session)

def agentWire (codec : Agent.CryptoCodec) (r : Readings) (type : MessageType) (payload : Str) :
    Except Exn (List Sent) := do
  let sent ← Agent.WsClient.send d.client true true codec r.cpp type payload
  let env ← codec.encrypt d.client.ssl r.now r.draws (bytes payload) type
  .ok (if sent then [r.sent type payload (Agent.CryptoCodec.toJson env)] else [])

def forwarderWire (codec : CryptoCodec) (r : Readings) (type : MessageType) (payload : Str) : List Sent :=
  match (forwarderPut d.reprOf codec r.py type payload).wrote with
  | some (.message text) => [r.sent type payload text]
  | _ => []

-- Other threads and tasks send at any time; each loop does what it owes before it reads again.
def step (s : State) : Event → Option State
  | .agentSends r type payload =>
      match d.agentWire s.agent.codec r type payload with
      | .ok ms => some (s.agentPuts ms)
      | .error _ => some s
  | .agentTakes now₁ now₂ =>
      match s.agent.failed, s.agent.worker.pending, s.toAgent with
      | false, [], m :: rest =>
          match agentTake d.client s.agent.codec now₁ now₂ (bytes m.text) with
          | .ok (codec, actions) => some { s with agent := s.agent.take codec m actions, toAgent := rest }
          | .error _ => some { s with agent := s.agent.fail, toAgent := rest }
      | _, _, _ => none
  | .agentActs r =>
      match s.agent.failed, s.agent.worker.pending with
      | false, .ack payload :: rest =>
          match d.agentWire s.agent.codec r .ack payload with
          | .ok ms => some ({ s with agent := s.agent.finish (.ack payload) rest }.agentPuts ms)
          | .error _ => some { s with agent := s.agent.fail }
      | false, .dispatch type plaintext :: rest =>
          some { s with agent := s.agent.finish (.dispatch type plaintext) rest }
      | _, _ => none
  | .forwarderSends r type payload => some (s.forwarderPuts (d.forwarderWire s.forwarder.codec r type payload))
  | .forwarderTakes now₁ now₂ =>
      match s.forwarder.failed, s.forwarder.worker.pending, s.toForwarder with
      | false, [], m :: rest =>
          match forwarderTake d.reprOf d.hasMessageCb s.forwarder.codec now₁ now₂ m.text with
          | .ok (codec, actions) => some { s with forwarder := s.forwarder.take codec m actions, toForwarder := rest }
          | .error _ => some { s with forwarder := s.forwarder.fail, toForwarder := rest }
      | _, _, _ => none
  | .forwarderActs r =>
      match s.forwarder.failed, s.forwarder.worker.pending with
      | false, .ack payload :: rest =>
          some ({ s with forwarder := s.forwarder.finish (.ack payload) rest }.forwarderPuts
            (d.forwarderWire s.forwarder.codec r .ack payload))
      | false, .dispatch type plaintext :: rest =>
          some { s with forwarder := s.forwarder.finish (.dispatch type plaintext) rest }
      | _, _ => none

inductive Moves (s : State) : Event → State → Prop
  | agentSent {r type payload ms} (hwire : d.agentWire s.agent.codec r type payload = .ok ms) :
      Moves s (.agentSends r type payload) (s.agentPuts ms)
  | agentUnsent {r type payload e} (hwire : d.agentWire s.agent.codec r type payload = .error e) :
      Moves s (.agentSends r type payload) s
  | agentTook {now₁ now₂ m rest codec actions} (hidle : s.agent.worker.pending = []) (hflight : s.toAgent = m :: rest)
      (htake : agentTake d.client s.agent.codec now₁ now₂ (bytes m.text) = .ok (codec, actions)) :
      Moves s (.agentTakes now₁ now₂) { s with agent := s.agent.take codec m actions, toAgent := rest }
  | agentFailed {now₁ now₂ m rest e} (hidle : s.agent.worker.pending = []) (hflight : s.toAgent = m :: rest)
      (htake : agentTake d.client s.agent.codec now₁ now₂ (bytes m.text) = .error e) :
      Moves s (.agentTakes now₁ now₂) { s with agent := s.agent.fail, toAgent := rest }
  | agentAcked {r payload rest ms} (hpending : s.agent.worker.pending = .ack payload :: rest)
      (hwire : d.agentWire s.agent.codec r .ack payload = .ok ms) :
      Moves s (.agentActs r) ({ s with agent := s.agent.finish (.ack payload) rest }.agentPuts ms)
  | agentUnacked {r payload rest e} (hpending : s.agent.worker.pending = .ack payload :: rest)
      (hwire : d.agentWire s.agent.codec r .ack payload = .error e) :
      Moves s (.agentActs r) { s with agent := s.agent.fail }
  | agentDispatched {r type plaintext rest} (hpending : s.agent.worker.pending = .dispatch type plaintext :: rest) :
      Moves s (.agentActs r) { s with agent := s.agent.finish (.dispatch type plaintext) rest }
  | forwarderSent {r type payload} :
      Moves s (.forwarderSends r type payload) (s.forwarderPuts (d.forwarderWire s.forwarder.codec r type payload))
  | forwarderTook {now₁ now₂ m rest codec actions} (hidle : s.forwarder.worker.pending = [])
      (hflight : s.toForwarder = m :: rest)
      (htake : forwarderTake d.reprOf d.hasMessageCb s.forwarder.codec now₁ now₂ m.text = .ok (codec, actions)) :
      Moves s (.forwarderTakes now₁ now₂) { s with forwarder := s.forwarder.take codec m actions, toForwarder := rest }
  | forwarderFailed {now₁ now₂ m rest e} (hidle : s.forwarder.worker.pending = []) (hflight : s.toForwarder = m :: rest)
      (htake : forwarderTake d.reprOf d.hasMessageCb s.forwarder.codec now₁ now₂ m.text = .error e) :
      Moves s (.forwarderTakes now₁ now₂) { s with forwarder := s.forwarder.fail, toForwarder := rest }
  | forwarderAcked {r payload rest} (hpending : s.forwarder.worker.pending = .ack payload :: rest) :
      Moves s (.forwarderActs r) ({ s with forwarder := s.forwarder.finish (.ack payload) rest }.forwarderPuts
        (d.forwarderWire s.forwarder.codec r .ack payload))
  | forwarderDispatched {r type plaintext rest}
      (hpending : s.forwarder.worker.pending = .dispatch type plaintext :: rest) :
      Moves s (.forwarderActs r) { s with forwarder := s.forwarder.finish (.dispatch type plaintext) rest }

theorem moves_of_step {s t : State} {e : Event} (h : d.step s e = some t) : d.Moves s e t := by
  cases e with
  | agentSends r type payload =>
      simp only [step] at h
      split at h
      · rename_i hwire
        cases h
        exact .agentSent hwire
      · rename_i hwire
        cases h
        exact .agentUnsent hwire
  | agentTakes now₁ now₂ =>
      simp only [step] at h
      split at h
      · rename_i hidle hflight
        split at h
        · rename_i htake
          cases h
          exact .agentTook hidle hflight htake
        · rename_i htake
          cases h
          exact .agentFailed hidle hflight htake
      · cases h
  | agentActs r =>
      simp only [step] at h
      split at h
      · rename_i hpending
        split at h
        · rename_i hwire
          cases h
          exact .agentAcked hpending hwire
        · rename_i hwire
          cases h
          exact .agentUnacked hpending hwire
      · rename_i hpending
        cases h
        exact .agentDispatched hpending
      · cases h
  | forwarderSends r type payload =>
      cases h
      exact .forwarderSent
  | forwarderTakes now₁ now₂ =>
      simp only [step] at h
      split at h
      · rename_i hidle hflight
        split at h
        · rename_i htake
          cases h
          exact .forwarderTook hidle hflight htake
        · rename_i htake
          cases h
          exact .forwarderFailed hidle hflight htake
      · cases h
  | forwarderActs r =>
      simp only [step] at h
      split at h
      · rename_i hpending
        cases h
        exact .forwarderAcked hpending
      · rename_i hpending
        cases h
        exact .forwarderDispatched hpending
      · cases h

def machine : Machine State Event where
  init := { agent := .start d.agentCodec, forwarder := .start d.forwarderCodec, toAgent := [], toForwarder := [] }
  step := d.step

def agentAccepts (codec : Agent.CryptoCodec) (now₁ now₂ : Int) (m : Sent) : Bool :=
  match Agent.CryptoCodec.fromJson d.client.nl (bytes m.text) with
  | .ok env => (codec.decrypt d.client.ssl now₁ now₂ env).1.ok
  | .error _ => false

def forwarderAccepts (codec : CryptoCodec) (now₁ now₂ : Int) (m : Sent) : Bool :=
  match (codec.decrypt d.reprOf now₁ now₂ m.text).1 with
  | .ok result => result.ok
  | .error _ => false

-- Neither side originates an ACK, payloads are text, sends succeed and decrypt accepts what arrives. A send of the agent
-- succeeds below limit; the agent cannot decode more than 1585834077 bytes.
def Assumed (limit : Nat) (s : State) : Event → Prop
  | .agentSends r type payload => type ≠ .ack ∧ Scalar payload ∧ (bytes payload).length < limit ∧ r.written = true
  | .agentTakes now₁ now₂ => ∀ m ∈ s.toAgent.head?, d.agentAccepts s.agent.codec now₁ now₂ m = true
  | .agentActs r => r.written = true
  | .forwarderSends r type payload =>
      type ≠ .ack ∧ Scalar payload ∧ (bytes payload).length ≤ 1585834077 ∧ r.written = true
  | .forwarderTakes now₁ now₂ => ∀ m ∈ s.toForwarder.head?, d.forwarderAccepts s.forwarder.codec now₁ now₂ m = true
  | .forwarderActs r => r.written = true

instance (limit : Nat) (s : State) : (e : Event) → Decidable (d.Assumed limit s e)
  | .agentSends _ type payload => inferInstanceAs (Decidable (type ≠ .ack ∧ Scalar payload ∧ _ < limit ∧ _ = true))
  | .agentTakes now₁ now₂ => inferInstanceAs (Decidable (∀ m ∈ s.toAgent.head?, d.agentAccepts _ now₁ now₂ m = true))
  | .agentActs r => inferInstanceAs (Decidable (r.written = true))
  | .forwarderSends _ type payload =>
      inferInstanceAs (Decidable (type ≠ .ack ∧ Scalar payload ∧ _ ≤ 1585834077 ∧ _ = true))
  | .forwarderTakes now₁ now₂ =>
      inferInstanceAs (Decidable (∀ m ∈ s.toForwarder.head?, d.forwarderAccepts _ now₁ now₂ m = true))
  | .forwarderActs r => inferInstanceAs (Decidable (r.written = true))

end Session

section Reaction

variable {P : Type}

def Answered (m : Sent) : Prop := m.type = .heartbeat ∨ m.type = .buildTrigger

def Business (m : Sent) : Prop := m.type ≠ .heartbeat ∧ m.type ≠ .ack

instance : DecidablePred Answered := fun _ => inferInstanceAs (Decidable (_ ∨ _))

instance : DecidablePred Business := fun _ => inferInstanceAs (Decidable (_ ∧ _))

-- The ACK comes before the dispatch.
def reaction (ackText : Sent → Str) (plain : Str → P) (m : Sent) : List (Action P) :=
  (if Answered m then [.ack (ackText m)] else []) ++ (if Business m then [.dispatch m.type (plain m.payload)] else [])

def agentAckText (m : Sent) : Str :=
  if m.type = .heartbeat then Agent.WsClient.heartbeatAck else Agent.WsClient.triggerAck m.msgId

def forwarderAckText (m : Sent) : Str := if m.type = .heartbeat then heartbeatAck else triggerAck (.str m.msgId)

theorem agentActions_eq (m : Sent) :
    agentActions true m.msgId (bytes m.payload) m.type = reaction agentAckText bytes m := by
  obtain ⟨type, payload, msgId, text⟩ := m
  cases type <;> rfl

theorem forwarderActions_eq {m : Sent} (hm : Scalar m.payload) :
    forwarderActions true (.str m.msgId) (bytes m.payload) m.type = reaction forwarderAckText id m := by
  obtain ⟨type, payload, msgId, text⟩ := m
  obtain ⟨data, hdata⟩ := Option.isSome_iff_exists.mp (scalar_iff.mpr hm)
  have hbytes : decodeUtf8 (bytes payload) = some payload := by
    rw [bytes, hdata, Option.getD_some, decode_encode hdata]
  cases type <;> simp only [forwarderActions, hbytes] <;> rfl

end Reaction

section Carried

structure Carries (gcm : AesGcm) (m : Sent) (env : Agent.CryptoEnvelope) (parts : Sealed) (now : Int) (draws : Draws) :
    Prop where
  genuine : Genuine env now draws m.type parts
  written : ∃ fields, Written env fields ∧ m.text = dumpsWith .compact (.obj fields)
  int64 : Int64 now
  drawn : Drawn draws
  ivSize : parts.iv.length = 12
  encrypted : gcm.encrypted parts.iv (bytes m.payload) = (parts.ciphertext, parts.tag)
  short : (bytes m.payload).length < 2147483648
  msgId : m.msgId = env.msgId
  payload : Scalar m.payload

def Carried (gcm : AesGcm) (m : Sent) : Prop := ∃ env parts now draws, Carries gcm m env parts now draws

-- The agent can decode the ciphertext.
def Legible (m : Sent) : Prop := (bytes m.payload).length ≤ 1585834077

variable {d : Session} {gcm : AesGcm} {limit : Nat} {r : Readings} {type : MessageType} {payload : Str} {m : Sent}
  {now₁ now₂ : Int}

theorem carried_sent (r : Readings) (type : MessageType) {sender : Agent.Transit.Party} (hkey : Keyed gcm sender)
    (hbio : Bio d.client.ssl limit) (hpayload : Scalar payload) (hshort : (bytes payload).length < 2147483648)
    (hheld : Held limit sender (bytes payload)) : ∃ text parts,
      Agent.Transit.send d.reprOf d.client.ssl r.now r.draws (bytes payload) type sender = some text ∧
      (∃ env, Carries gcm (r.sent type payload text) env parts r.now r.draws) ∧
      parts.signature = sender.signer.sign r.draws.entropy parts.payload := by
  obtain ⟨env, parts, fields, hsend, hwritten, hgenuine, hiv, henc, hsignature⟩ :=
    Agent.Transit.send_written d.reprOf r.now type hkey.seals hkey.der hbio r.drawn
      (Agent.Transit.sealedPart_short hshort sender) hheld
  rw [← hiv] at henc
  exact ⟨_, parts, hsend, ⟨env, hgenuine, ⟨fields, hwritten, rfl⟩, r.int64, r.drawn, hiv ▸ r.drawn.ivSize, henc, hshort,
    hgenuine.msgId.symm, hpayload⟩, hsignature⟩

theorem agentWire_of_send {codec : Agent.CryptoCodec} {text : Str} (hwritten : r.written = true)
    (hsend : Agent.Transit.send d.reprOf d.client.ssl r.now r.draws (bytes payload) type (.cpp codec) = some text) :
    d.agentWire codec r type payload = .ok [r.sent type payload text] := by
  cases hencrypt : codec.encrypt d.client.ssl r.now r.draws (bytes payload) type with
  | error e => simp [Agent.Transit.send, hencrypt, Except.toOption] at hsend
  | ok env =>
      simp only [Agent.Transit.send, hencrypt, Except.toOption, Option.map_some, Option.some.injEq] at hsend
      rw [Session.agentWire, Agent.WsClient.send]
      simp only [Readings.cpp, Bool.not_true, Bool.or_self, Bool.false_eq_true, if_false, hencrypt, hwritten, ← hsend]
      rfl

theorem agentWire_eq (type : MessageType) {codec : Agent.CryptoCodec} (hkey : Keyed gcm (.cpp codec))
    (hbio : Bio d.client.ssl limit) (hpayload : Scalar payload) (hsize : (bytes payload).length < limit)
    (hwritten : r.written = true) :
    ∃ m, d.agentWire codec r type payload = .ok [m] ∧ m.type = type ∧ m.payload = payload ∧ Carried gcm m := by
  obtain ⟨text, parts, hsend, ⟨env, hc⟩, -⟩ :=
    carried_sent r type hkey hbio hpayload (hsize.trans_le hbio.atMost) hsize
  exact ⟨_, agentWire_of_send hwritten hsend, rfl, rfl, env, parts, _, _, hc⟩

theorem utf8_bytes (hpayload : Scalar payload) : CryptoCodec.utf8 payload = .ok (bytes payload) := by
  obtain ⟨data, hdata⟩ := Option.isSome_iff_exists.mp (scalar_iff.mpr hpayload)
  rw [CryptoCodec.utf8, bytes, hdata]
  rfl

theorem forwarderWire_of_send {codec : CryptoCodec} {text : Str} (hwritten : r.written = true) (hpayload : Scalar payload)
    (hsend : Agent.Transit.send d.reprOf d.client.ssl r.now r.draws (bytes payload) type (.py codec) = some text) :
    d.forwarderWire codec r type payload = [r.sent type payload text] := by
  cases hencrypt : codec.encrypt d.reprOf r.now r.draws (bytes payload) type with
  | error e => simp [Agent.Transit.send, hencrypt, Except.toOption] at hsend
  | ok text' =>
      simp only [Agent.Transit.send, hencrypt, Except.toOption, Option.some.injEq] at hsend
      have henc : Sending.encrypted d.reprOf ⟨r.now, r.draws, true⟩ type payload codec = .ok text := by
        rw [Sending.encrypted, utf8_bytes hpayload, ← hsend]
        exact hencrypt
      rw [Session.forwarderWire, forwarderPut, Sending.sendEncrypted]
      simp only [Readings.py, hwritten, henc, Sending.attempt, if_true]

theorem forwarderWire_eq (type : MessageType) {codec : CryptoCodec} (hkey : Keyed gcm (.py codec))
    (hbio : Bio d.client.ssl limit) (hpayload : Scalar payload) (hsize : (bytes payload).length ≤ 1585834077)
    (hwritten : r.written = true) :
    ∃ m, d.forwarderWire codec r type payload = [m] ∧ m.type = type ∧ m.payload = payload ∧ Carried gcm m := by
  obtain ⟨text, parts, hsend, ⟨env, hc⟩, -⟩ :=
    carried_sent r type hkey hbio hpayload (lt_of_le_of_lt hsize (by decide)) trivial
  exact ⟨_, forwarderWire_of_send hwritten hpayload hsend, rfl, rfl, env, parts, _, _, hc⟩

theorem Carries.fromJson {env : Agent.CryptoEnvelope} {parts : Sealed} {now : Int} {draws : Draws}
    (hc : Carries gcm m env parts now draws) (hjson : ReadsFlat d.client.nl) :
    Agent.CryptoCodec.fromJson d.client.nl (bytes m.text) = .ok env := by
  obtain ⟨fields, hwritten, htext⟩ := hc.written
  obtain ⟨data, hdata, henv⟩ := hc.genuine.fromJson_cpp hjson hc.int64 hwritten
  rwa [htext, bytes, hdata, Option.getD_some]

theorem agentTake_carried {codec : Agent.CryptoCodec} (hm : Carried gcm m) (hlegible : Legible m)
    (hopens : Opens gcm (.cpp codec)) (hbio : Bio d.client.ssl limit) (hjson : ReadsFlat d.client.nl)
    (hcb : d.client.hasMessageCb = true) (h : d.agentAccepts codec now₁ now₂ m = true) : ∃ guard,
      agentTake d.client codec now₁ now₂ (bytes m.text) = .ok ({ codec with guard }, reaction agentAckText bytes m) := by
  obtain ⟨env, parts, now, draws, hc⟩ := hm
  have henv := hc.fromJson hjson
  simp only [Session.agentAccepts, henv] at h
  obtain ⟨hsize, htag⟩ := Agent.Transit.sizes_encrypted hc.encrypted
  have hopen := hopens.cpp hc.ivSize hc.encrypted hc.short
  have hout := ((Agent.Interop.cppDecrypt_ok_iff codec.cipher parts.ciphertext parts.iv parts.tag).mpr
    ⟨hc.ivSize, htag, hopen⟩).2
  have hdecrypt := Agent.Transit.decrypt_of_accepts now₂ ((Agent.CryptoCodec.decrypt_ok_iff _ _).mp h)
  rw [hc.genuine.ciphertext.cpp hbio (hsize.trans_le hlegible), hc.genuine.iv.cpp hbio (hc.ivSize.le.trans (by decide)),
    hc.genuine.tag.cpp hbio (htag.le.trans (by decide)), hout] at hdecrypt
  have hactions : agentActions d.client.hasMessageCb env.msgId (bytes m.payload) m.type =
      reaction agentAckText bytes m := by rw [hcb, ← hc.msgId, agentActions_eq]
  rw [agentTake_eq henv hdecrypt hc.genuine.type, hactions]
  exact ⟨_, rfl⟩

theorem pyAccepts_of_accepts {codec : CryptoCodec} (h : d.forwarderAccepts codec now₁ now₂ m = true) :
    ∃ plaintext, PyAccepts d.reprOf codec now₁ now₂ m.text plaintext := by
  unfold Session.forwarderAccepts at h
  split at h
  · rename_i result hresult
    exact ⟨_, result, hresult, h, rfl⟩
  · cases h

theorem forwarderTake_carried {codec : CryptoCodec} (hm : Carried gcm m) (hopens : Opens gcm (.py codec))
    (hcb : d.hasMessageCb = true) (h : d.forwarderAccepts codec now₁ now₂ m = true) : ∃ guard,
      forwarderTake d.reprOf d.hasMessageCb codec now₁ now₂ m.text =
      .ok ({ codec with guard }, reaction forwarderAckText id m) := by
  obtain ⟨env, parts, now, draws, hc⟩ := hm
  obtain ⟨fields, hwritten, htext⟩ := hc.written
  have henv : CryptoEnvelope.fromJson m.text = .ok (embed env) := htext ▸ hc.genuine.fromJson hc.int64 hwritten
  obtain ⟨plaintext, haccepts⟩ := pyAccepts_of_accepts h
  obtain ⟨env', hvalidate⟩ := Agent.Interop.pyAccepts_iff_validate.mp haccepts
  obtain ⟨henv', parts', hready, -, hopen'⟩ := Agent.Interop.validate_ok_iff.mp hvalidate
  cases henv.symm.trans henv'
  have field {s : Str} {x y : Bytes} (hx : b64Decode s = some x) (hy : CryptoCodec.b64Field (.str s) = .ok y) :
      y = x := Option.some.inj ((Agent.Interop.b64Field_str.mp hy).symm.trans hx)
  rw [field hc.genuine.iv.py hready.iv, field hc.genuine.ciphertext.py hready.ciphertext,
    field hc.genuine.tag.py hready.tag] at hopen'
  have hopen := hopens.py hc.ivSize hc.encrypted hc.short
  obtain rfl : plaintext = bytes m.payload := Except.ok.inj (hopen'.symm.trans hopen)
  have hdecrypt : codec.decrypt d.reprOf now₁ now₂ m.text = (.ok { plaintext := bytes m.payload, ok := true },
      { codec with guard := codec.guard.recordNonce now₂ env.nonce }) := by
    rw [CryptoCodec.decrypt, hvalidate]
    rfl
  have htype : Agent.Transit.msgType (embed env).type = .ok m.type := by
    change MessageType.parse env.type = .ok m.type
    rw [hc.genuine.type, MessageType.parse_value]
  have hmsgId : (embed env).msgId = .str m.msgId := by rw [hc.msgId, embed]
  have hactions : forwarderActions d.hasMessageCb (embed env).msgId (bytes m.payload) m.type =
      reaction forwarderAckText id m := by rw [hcb, hmsgId, forwarderActions_eq hc.payload]
  rw [forwarderTake_eq henv hdecrypt htype, hactions]
  exact ⟨_, rfl⟩

end Carried

section Side

variable {C P : Type} {ackText : Sent → Str} {plain : Str → P} {p : Party C P} {peer inFlight : List Sent} {m : Sent}

def acked : Action P → Option Str
  | .ack payload => some payload
  | .dispatch _ _ => none

def dispatched : Action P → Option (MessageType × P)
  | .ack _ => none
  | .dispatch type plaintext => some (type, plaintext)

def acksOf (ms : List Sent) : List Str := (ms.filter (·.type = .ack)).map (·.payload)

def AckText (payload : Str) : Prop := Scalar payload ∧ (bytes payload).length < 1024

structure Side (ackText : Sent → Str) (plain : Str → P) (p : Party C P) (peer inFlight : List Sent) : Prop where
  alive : p.failed = false
  arrives : peer = p.worker.taken ++ inFlight
  keeps : p.worker.Keeps (reaction ackText plain)
  acks : acksOf p.sent = p.worker.done.filterMap acked
  text : ∀ payload, .ack payload ∈ p.worker.pending → AckText payload

structure Exact (ackText : Sent → Str) (plain : Str → P) (p : Party C P) (peer inFlight : List Sent) : Prop where
  alive : p.failed = false
  arrives : peer = p.worker.taken ++ inFlight
  ordered : p.worker.done ++ p.worker.pending = p.worker.taken.flatMap (reaction ackText plain)
  dispatches : p.worker.pending = [] → p.worker.done.filterMap dispatched =
    (p.worker.taken.filter (Business ·)).map fun m => (m.type, plain m.payload)
  acks : p.worker.pending = [] → acksOf p.sent = (p.worker.taken.filter (Answered ·)).map ackText
  count : p.worker.pending = [] →
    (p.sent.filter (·.type = .ack)).length = (p.worker.taken.filter (Answered ·)).length

theorem acksOf_append (xs ys : List Sent) : acksOf (xs ++ ys) = acksOf xs ++ acksOf ys := by
  simp only [acksOf, List.filter_append, List.map_append]

theorem dispatched_reaction (m : Sent) : (reaction ackText plain m).filterMap dispatched =
    (if Business m then some (m.type, plain m.payload) else none).toList := by
  unfold reaction
  by_cases hanswered : Answered m <;> by_cases hbusiness : Business m <;>
    simp only [hanswered, hbusiness, if_true, if_false] <;> rfl

theorem acked_reaction (m : Sent) : (reaction ackText plain m).filterMap acked =
    (if Answered m then some (ackText m) else none).toList := by
  unfold reaction
  by_cases hanswered : Answered m <;> by_cases hbusiness : Business m <;>
    simp only [hanswered, hbusiness, if_true, if_false] <;> rfl

theorem filterMap_ite {A B : Type} (q : A → Prop) [DecidablePred q] (f : A → B) (xs : List A) :
    xs.filterMap (fun x => if q x then some (f x) else none) = (xs.filter (q ·)).map f := by
  induction xs with
  | nil => rfl
  | cons x xs ih => by_cases hx : q x <;> simp [hx, ih]

theorem Side.exact (h : Side ackText plain p peer inFlight) : Exact ackText plain p peer inFlight := by
  have hacks : p.worker.pending = [] → acksOf p.sent = (p.worker.taken.filter (Answered ·)).map ackText := by
    intro hidle
    rw [h.acks, h.keeps.filterMap_done hidle fun m _ => acked_reaction m, filterMap_ite]
  refine ⟨h.alive, h.arrives, h.keeps, fun hidle => ?_, hacks, fun hidle => ?_⟩
  · rw [h.keeps.filterMap_done hidle fun m _ => dispatched_reaction m, filterMap_ite]
  · have hlength := congrArg List.length (hacks hidle)
    simpa [acksOf] using hlength

theorem side_start (codec : C) : Side ackText plain (.start codec) [] [] :=
  ⟨rfl, rfl, Worker.keeps_fresh, rfl, fun _ h => absurd h List.not_mem_nil⟩

theorem Side.receives (h : Side ackText plain p peer inFlight) (ms : List Sent) :
    Side ackText plain p (peer ++ ms) (inFlight ++ ms) :=
  { h with arrives := by rw [h.arrives, List.append_assoc] }

theorem Side.originates (h : Side ackText plain p peer inFlight) (hm : m.type ≠ .ack) :
    Side ackText plain (p.put [m]) peer inFlight :=
  { h with
    acks := by
      have hnone : acksOf [m] = [] := by simp [acksOf, hm]
      change acksOf (p.sent ++ [m]) = p.worker.done.filterMap acked
      rw [← h.acks, acksOf_append, hnone, List.append_nil] }

theorem Side.takes (h : Side ackText plain p peer (m :: inFlight)) (hidle : p.worker.pending = []) (codec : C)
    (htext : AckText (ackText m)) : Side ackText plain (p.take codec m (reaction ackText plain m)) peer inFlight where
  alive := h.alive
  arrives := by
    rw [h.arrives, Party.take, Worker.take, List.append_assoc, List.singleton_append]
  keeps := h.keeps.take hidle m
  acks := h.acks
  text := by
    intro payload hmem
    change .ack payload ∈ reaction ackText plain m at hmem
    have hacked : payload ∈ (reaction ackText plain m).filterMap acked := List.mem_filterMap.mpr ⟨_, hmem, rfl⟩
    rw [acked_reaction] at hacked
    split at hacked
    · exact List.mem_singleton.mp hacked ▸ htext
    · cases hacked

theorem Side.dispatches (h : Side ackText plain p peer inFlight) {type : MessageType} {plaintext : P}
    {rest : List (Action P)} (hpending : p.worker.pending = .dispatch type plaintext :: rest) :
    Side ackText plain (p.finish (.dispatch type plaintext) rest) peer inFlight where
  alive := h.alive
  arrives := h.arrives
  keeps := h.keeps.finish hpending
  acks := by
    change acksOf p.sent = (p.worker.done ++ [Action.dispatch type plaintext]).filterMap acked
    rw [h.acks, List.filterMap_append]
    simp [acked]
  text := fun payload hmem => h.text payload (hpending ▸ List.mem_cons_of_mem _ hmem)

theorem Side.acknowledges (h : Side ackText plain p peer inFlight) {payload : Str} {rest : List (Action P)}
    (hpending : p.worker.pending = .ack payload :: rest) (hm : m.type = .ack) (hpayload : m.payload = payload) :
    Side ackText plain ((p.finish (.ack payload) rest).put [m]) peer inFlight where
  alive := h.alive
  arrives := h.arrives
  keeps := h.keeps.finish hpending
  acks := by
    change acksOf (p.sent ++ [m]) = (p.worker.done ++ [Action.ack payload]).filterMap acked
    rw [acksOf_append, h.acks, List.filterMap_append]
    simp [acked, acksOf, hm, hpayload]
  text := fun payload' hmem => h.text payload' (hpending ▸ List.mem_cons_of_mem _ hmem)

end Side

section Session

variable {d : Session} {gcm : AesGcm} {limit : Nat} {s t : State} {e : Event}

structure Sound (d : Session) (gcm : AesGcm) (limit : Nat) : Prop where
  agentCb : d.client.hasMessageCb = true
  forwarderCb : d.hasMessageCb = true
  json : ReadsFlat d.client.nl
  bio : Bio d.client.ssl limit
  agentKey : Keyed gcm (.cpp d.agentCodec)
  forwarderKey : Keyed gcm (.py d.forwarderCodec)

structure Inv (gcm : AesGcm) (s : State) : Prop where
  agent : Side agentAckText bytes s.agent s.forwarder.sent s.toAgent
  forwarder : Side forwarderAckText id s.forwarder s.agent.sent s.toForwarder
  toAgent : ∀ m ∈ s.toAgent, Carried gcm m ∧ Legible m
  toForwarder : ∀ m ∈ s.toForwarder, Carried gcm m
  agentKey : Keyed gcm (.cpp s.agent.codec)
  forwarderKey : Keyed gcm (.py s.forwarder.codec)

structure Orderly (s : State) : Prop where
  agent : Exact agentAckText bytes s.agent s.forwarder.sent s.toAgent
  forwarder : Exact forwarderAckText id s.forwarder s.agent.sent s.toForwarder

def Uuid (msgId : Str) : Prop := ∃ random : Bytes, random.length = 16 ∧ msgId = generateUuid random

theorem uuid_msgId {m : Sent} (hm : Carried gcm m) : Uuid m.msgId := by
  obtain ⟨env, parts, now, draws, hc⟩ := hm
  exact ⟨draws.uuid, hc.drawn.uuidSize, hc.msgId.trans hc.genuine.msgId⟩

theorem Uuid.scalar {msgId : Str} (h : Uuid msgId) : Scalar msgId := by
  obtain ⟨random, -, rfl⟩ := h
  exact Agent.Transit.scalar_generateUuid random

theorem Uuid.length_quoted {msgId : Str} (h : Uuid msgId) : (quoted true msgId).length = 38 := by
  obtain ⟨random, hrandom, rfl⟩ := h
  have hplain : ∀ p ∈ generateUuid random, escaped true p = [p] := by
    have hhex : ∀ n < 16, escaped true (ofChar (Nat.digitChar n)) = [ofChar (Nat.digitChar n)] := by decide
    intro p hp
    by_contra hnot
    refine notMem_generateUuid (fun h => hnot ?_) (fun n hn h => hnot ?_) random hp
    · rw [h]
      decide
    · rw [h]
      exact hhex n hn
  have hbody : (generateUuid random).flatMap (escaped true) = generateUuid random := by
    rw [List.flatMap_congr hplain]
    exact List.flatMap_singleton' _
  rw [quoted, hbody, List.length_append, List.length_cons, length_generateUuid hrandom]
  rfl

theorem ackText_of_length {payload : Str} (hpayload : Scalar payload) (h : payload.length < 256) : AckText payload := by
  refine ⟨hpayload, ?_⟩
  obtain ⟨data, hdata⟩ := Option.isSome_iff_exists.mp (scalar_iff.mpr hpayload)
  have hle := length_encodeUtf8_le hdata
  rw [bytes, hdata, Option.getD_some]
  omega

theorem ackText_agent {m : Sent} (hmsgId : Uuid m.msgId) : AckText (agentAckText m) := by
  unfold agentAckText
  split
  · exact ackText_of_length (scalar_str _) (by decide)
  · refine ackText_of_length (((scalar_str _).append hmsgId.scalar).append (scalar_str _)) ?_
    obtain ⟨random, hrandom, hid⟩ := hmsgId
    rw [Agent.WsClient.triggerAck, List.length_append, List.length_append, hid, length_generateUuid hrandom]
    decide

theorem scalar_object {fields : List (Str × Value)}
    (hfields : ∀ f ∈ fields, ∃ s, f.2 = .str s ∧ Scalar s ∧ Scalar f.1) : Scalar (dumps (.obj fields)) := by
  refine scalar_dumpsWith (scalar_str ", ") (scalar_str ": ") fun f hf => ?_
  obtain ⟨s, hs, hscalar, hkey⟩ := hfields f hf
  exact ⟨hkey, hs ▸ scalar_quoted hscalar⟩

theorem ackText_triggerAck {msgId : Str} (hmsgId : Uuid msgId) : AckText (triggerAck (.str msgId)) := by
  refine ackText_of_length (scalar_object fun f hf => ?_) ?_
  · simp only [List.mem_cons, List.not_mem_nil, or_false] at hf
    rcases hf with rfl | rfl
    · exact ⟨_, rfl, hmsgId.scalar, scalar_str _⟩
    · exact ⟨_, rfl, scalar_str _, scalar_str _⟩
  · have hbody := hmsgId.length_quoted
    simp only [triggerAck, dumps, dumpsWith, dumpFields, separated, List.length_append, List.length_cons]
    rw [show Layout.standard.ascii = true from rfl, hbody]
    decide

theorem ackText_forwarder {m : Sent} (hmsgId : Uuid m.msgId) : AckText (forwarderAckText m) := by
  unfold forwarderAckText
  split
  · refine ackText_of_length (scalar_object fun f hf => ?_) (by decide)
    cases List.mem_singleton.mp hf
    exact ⟨_, rfl, scalar_str _, scalar_str _⟩
  · exact ackText_triggerAck hmsgId

theorem Inv.orderly (h : Inv gcm s) : Orderly s := ⟨h.agent.exact, h.forwarder.exact⟩

theorem inv_init (hd : Sound d gcm limit) : Inv gcm d.machine.init :=
  ⟨side_start _, side_start _, nofun, nofun, hd.agentKey, hd.forwarderKey⟩

theorem Inv.agentPuts (h : Inv gcm s) {m : Sent} (hm : Carried gcm m)
    {p : Party Agent.CryptoCodec Bytes} (hside : Side agentAckText bytes (p.put [m]) s.forwarder.sent s.toAgent)
    (hsent : p.sent = s.agent.sent) (hkey : Keyed gcm (.cpp p.codec)) :
    Inv gcm ({ s with agent := p }.agentPuts [m]) where
  agent := hside
  forwarder := by
    have hside := h.forwarder.receives [m]
    rwa [← hsent] at hside
  toAgent := h.toAgent
  toForwarder := List.forall_mem_append.mpr ⟨h.toForwarder, fun _ hmem => List.mem_singleton.mp hmem ▸ hm⟩
  agentKey := hkey
  forwarderKey := h.forwarderKey

theorem Inv.forwarderPuts (h : Inv gcm s) {m : Sent} (hm : Carried gcm m ∧ Legible m)
    {p : Party CryptoCodec Str} (hside : Side forwarderAckText id (p.put [m]) s.agent.sent s.toForwarder)
    (hsent : p.sent = s.forwarder.sent) (hkey : Keyed gcm (.py p.codec)) :
    Inv gcm ({ s with forwarder := p }.forwarderPuts [m]) where
  agent := by
    have hside := h.agent.receives [m]
    rwa [← hsent] at hside
  forwarder := hside
  toAgent := List.forall_mem_append.mpr ⟨h.toAgent, fun _ hmem => List.mem_singleton.mp hmem ▸ hm⟩
  toForwarder := h.toForwarder
  agentKey := h.agentKey
  forwarderKey := hkey

theorem legible_of_payload {m : Sent} {payload : Str} (hm : m.payload = payload)
    (hsize : (bytes payload).length ≤ 1585834077) : Legible m := by
  rw [Legible, hm]
  exact hsize

theorem inv_agentSends (hd : Sound d gcm limit) (hs : Inv gcm s) {r : Readings} {type : MessageType} {payload : Str}
    (hG : d.Assumed limit s (.agentSends r type payload)) (h : d.step s (.agentSends r type payload) = some t) :
    Inv gcm t := by
  obtain ⟨htype, hpayload, hsize, hwritten⟩ := hG
  obtain ⟨m, hwire, hm, -, hcarried⟩ := agentWire_eq type hs.agentKey hd.bio hpayload hsize hwritten
  cases d.moves_of_step h with
  | agentSent hsent =>
      cases hwire.symm.trans hsent
      exact hs.agentPuts hcarried (hs.agent.originates (hm ▸ htype)) rfl hs.agentKey
  | agentUnsent hunsent => cases hwire.symm.trans hunsent

theorem inv_agentTakes (hd : Sound d gcm limit) (hs : Inv gcm s) {now₁ now₂ : Int}
    (hG : d.Assumed limit s (.agentTakes now₁ now₂)) (h : d.step s (.agentTakes now₁ now₂) = some t) : Inv gcm t := by
  have htakes : ∀ m rest, s.toAgent = m :: rest → Carried gcm m ∧ ∃ guard,
      agentTake d.client s.agent.codec now₁ now₂ (bytes m.text) =
        .ok ({ s.agent.codec with guard }, reaction agentAckText bytes m) := fun m rest hflight => by
    obtain ⟨hcarried, hlegible⟩ := hs.toAgent m (hflight ▸ List.mem_cons_self)
    exact ⟨hcarried, agentTake_carried hcarried hlegible hs.agentKey.opens hd.bio hd.json hd.agentCb
      (hG m (by rw [hflight]; rfl))⟩
  cases d.moves_of_step h with
  | agentTook hidle hflight htook =>
      obtain ⟨hcarried, guard, htake⟩ := htakes _ _ hflight
      cases htake.symm.trans htook
      exact
        { agent := (hflight ▸ hs.agent).takes hidle _ (ackText_agent (uuid_msgId hcarried))
          forwarder := hs.forwarder
          toAgent := fun m' hmem => hs.toAgent m' (hflight ▸ List.mem_cons_of_mem _ hmem)
          toForwarder := hs.toForwarder
          agentKey := hs.agentKey.cpp_guard guard
          forwarderKey := hs.forwarderKey }
  | agentFailed _ hflight hfailed =>
      obtain ⟨-, guard, htake⟩ := htakes _ _ hflight
      cases htake.symm.trans hfailed

theorem inv_agentActs (hd : Sound d gcm limit) (hs : Inv gcm s) {r : Readings} (hwritten : r.written = true)
    (h : d.step s (.agentActs r) = some t) : Inv gcm t := by
  have hwires : ∀ payload rest, s.agent.worker.pending = .ack payload :: rest → ∃ m,
      d.agentWire s.agent.codec r .ack payload = .ok [m] ∧ m.type = .ack ∧ m.payload = payload ∧ Carried gcm m :=
    fun payload rest hpending => by
      obtain ⟨hpayload, hshort⟩ := hs.agent.text payload (hpending ▸ List.mem_cons_self)
      exact agentWire_eq .ack hs.agentKey hd.bio hpayload (hshort.trans_le hd.bio.atLeast) hwritten
  cases d.moves_of_step h with
  | agentAcked hpending hacked =>
      obtain ⟨m, hwire, hm, hsame, hcarried⟩ := hwires _ _ hpending
      cases hwire.symm.trans hacked
      exact hs.agentPuts hcarried (hs.agent.acknowledges hpending hm hsame) rfl hs.agentKey
  | agentUnacked hpending hunacked =>
      obtain ⟨m, hwire, -⟩ := hwires _ _ hpending
      cases hwire.symm.trans hunacked
  | agentDispatched hpending => exact { hs with agent := hs.agent.dispatches hpending }

theorem inv_forwarderSends (hd : Sound d gcm limit) (hs : Inv gcm s) {r : Readings} {type : MessageType} {payload : Str}
    (hG : d.Assumed limit s (.forwarderSends r type payload)) (h : d.step s (.forwarderSends r type payload) = some t) :
    Inv gcm t := by
  obtain ⟨htype, hpayload, hsize, hwritten⟩ := hG
  obtain ⟨m, hwire, hm, hsame, hcarried⟩ := forwarderWire_eq type hs.forwarderKey hd.bio hpayload hsize hwritten
  cases d.moves_of_step h
  rw [hwire]
  exact hs.forwarderPuts ⟨hcarried, legible_of_payload hsame hsize⟩ (hs.forwarder.originates (hm ▸ htype)) rfl hs.forwarderKey

theorem inv_forwarderTakes (hd : Sound d gcm limit) (hs : Inv gcm s) {now₁ now₂ : Int}
    (hG : d.Assumed limit s (.forwarderTakes now₁ now₂)) (h : d.step s (.forwarderTakes now₁ now₂) = some t) :
    Inv gcm t := by
  have htakes : ∀ m rest, s.toForwarder = m :: rest → Carried gcm m ∧ ∃ guard,
      forwarderTake d.reprOf d.hasMessageCb s.forwarder.codec now₁ now₂ m.text =
        .ok ({ s.forwarder.codec with guard }, reaction forwarderAckText id m) := fun m rest hflight => by
    have hcarried := hs.toForwarder m (hflight ▸ List.mem_cons_self)
    exact ⟨hcarried, forwarderTake_carried hcarried hs.forwarderKey.opens hd.forwarderCb (hG m (by rw [hflight]; rfl))⟩
  cases d.moves_of_step h with
  | forwarderTook hidle hflight htook =>
      obtain ⟨hcarried, guard, htake⟩ := htakes _ _ hflight
      cases htake.symm.trans htook
      exact
        { agent := hs.agent
          forwarder := (hflight ▸ hs.forwarder).takes hidle _ (ackText_forwarder (uuid_msgId hcarried))
          toAgent := hs.toAgent
          toForwarder := fun m' hmem => hs.toForwarder m' (hflight ▸ List.mem_cons_of_mem _ hmem)
          agentKey := hs.agentKey
          forwarderKey := hs.forwarderKey.py_guard guard }
  | forwarderFailed _ hflight hfailed =>
      obtain ⟨-, guard, htake⟩ := htakes _ _ hflight
      cases htake.symm.trans hfailed

theorem inv_forwarderActs (hd : Sound d gcm limit) (hs : Inv gcm s) {r : Readings} (hwritten : r.written = true)
    (h : d.step s (.forwarderActs r) = some t) : Inv gcm t := by
  cases d.moves_of_step h with
  | forwarderAcked hpending =>
      obtain ⟨hpayload, hshort⟩ := hs.forwarder.text _ (hpending ▸ List.mem_cons_self)
      have hsize := hshort.le.trans (by decide : 1024 ≤ 1585834077)
      obtain ⟨m, hwire, hm, hsame, hcarried⟩ :=
        forwarderWire_eq .ack hs.forwarderKey hd.bio hpayload hsize hwritten
      rw [hwire]
      exact hs.forwarderPuts ⟨hcarried, legible_of_payload hsame hsize⟩ (hs.forwarder.acknowledges hpending hm hsame) rfl
        hs.forwarderKey
  | forwarderDispatched hpending => exact { hs with forwarder := hs.forwarder.dispatches hpending }

theorem inv_step (hd : Sound d gcm limit) (hs : Inv gcm s) (hG : d.Assumed limit s e) (h : d.step s e = some t) :
    Inv gcm t := by
  cases e with
  | agentSends r type payload => exact inv_agentSends hd hs hG h
  | agentTakes now₁ now₂ => exact inv_agentTakes hd hs hG h
  | agentActs r => exact inv_agentActs hd hs hG h
  | forwarderSends r type payload => exact inv_forwarderSends hd hs hG h
  | forwarderTakes now₁ now₂ => exact inv_forwarderTakes hd hs hG h
  | forwarderActs r => exact inv_forwarderActs hd hs hG h

theorem dispatched_exactly_once (hd : Sound d gcm limit) {es : List Event}
    (hassumed : d.machine.Guarded (d.Assumed limit) d.machine.init es) : d.machine.Always Orderly d.machine.init es :=
  d.machine.always_of_guarded (fun hs hG h => inv_step hd hs hG h) Inv.orderly (inv_init hd) hassumed

end Session

section Sample

open Agent.Transit (sampleGcm samplePy sampleCpp sampleDraws)

def sampleSession : Session where
  reprOf := fun _ => []
  client := ⟨Agent.Interop.sampleNl, Agent.Interop.sampleSsl, true⟩
  hasMessageCb := true
  agentCodec := sampleCpp
  forwarderCodec := samplePy

theorem sample_sound : Sound sampleSession sampleGcm 2147483648 where
  agentCb := rfl
  forwarderCb := rfl
  json := Agent.Transit.sample_readsFlat
  bio := Agent.Transit.sample_bio
  agentKey := ⟨Agent.Transit.sample_seals.2, Agent.Transit.sample_opens.2, Agent.Transit.sample_signs.der⟩
  forwarderKey := ⟨Agent.Transit.sample_seals.1, Agent.Transit.sample_opens.1, Agent.Transit.sample_signs.der⟩

def readingsOf (nonce : UInt8) : Readings where
  now := 1700000000000
  draws := { sampleDraws with nonce := List.replicate 16 nonce }
  written := true
  drawn := ⟨List.length_replicate, List.length_replicate, List.length_replicate⟩
  int64 := by unfold Agent.Transit.Int64; omega

def sampleReadings : Readings := readingsOf 2

def exchangeRun : List Event :=
  [.agentSends (readingsOf 1) .heartbeat [], .forwarderTakes 1700000000000 1700000000000,
    .forwarderSends (readingsOf 2) .buildTrigger (str "build"), .forwarderActs (readingsOf 3),
    .agentTakes 1700000000000 1700000000000, .agentActs (readingsOf 4), .agentActs (readingsOf 5),
    .agentSends (readingsOf 6) .buildResult (str "done"), .agentTakes 1700000000000 1700000000000,
    .forwarderTakes 1700000000000 1700000000000, .forwarderSends (readingsOf 7) .heartbeat [],
    .forwarderTakes 1700000000000 1700000000000, .forwarderActs (readingsOf 8),
    .agentTakes 1700000000000 1700000000000, .agentActs (readingsOf 9),
    .forwarderTakes 1700000000000 1700000000000]

theorem exchangeRun_assumed : sampleSession.machine.IsRun exchangeRun ∧
    sampleSession.machine.Guarded (sampleSession.Assumed 2147483648) sampleSession.machine.init exchangeRun := by
  decide +kernel

theorem dispatched_exactly_once_exchangeRun :
    sampleSession.machine.IsRun exchangeRun ∧
      sampleSession.machine.Always Orderly sampleSession.machine.init exchangeRun :=
  ⟨exchangeRun_assumed.1, dispatched_exactly_once sample_sound exchangeRun_assumed.2⟩

end Sample

end Ws.Dispatch
