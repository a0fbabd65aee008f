import JdRelay.Crypto.Codec
import JdRelay.Ws.AgentManager
import JdRelay.Ws.RawWs

namespace Ws.Sending
open Text Json Crypto RawWs
open Python (Error)

-- handle_agent_connection and ManualWsServer._handle_client.
inductive Server where
  | agentHandler
  | manualServer
  deriving DecidableEq

structure Connection where
  server : Server
  codec : Option CryptoCodec

structure Readings where
  now : Int
  draws : Draws
  written : Bool

inductive Wire where
  | message (text : Str)
  | frame (bytes : Bytes)
  deriving DecidableEq

structure Attempt where
  wrote : Option Wire
  returned : Bool

-- What calling info.send gives: a coroutine that runs when it is awaited, or the value of a run already over.
inductive Called where
  | coroutine (run : Attempt)
  | value (run : Attempt)

structure Outcome where
  written : List (Connection × Wire)
  result : Except Error Bool

-- none where length.to_bytes(2, 'big') raises an OverflowError.
def sendFrame (payload : Bytes) (opcode : Opcode) : Option Bytes :=
  let length := payload.length
  if length < 126 then some ((finBit ||| opcode.value) :: UInt8.ofNat length :: payload)
  else if length < 65536 then some ((finBit ||| opcode.value) :: 126 :: (pack 2 length ++ payload))
  else none

section Send

variable (reprOf : Value → Str) (r : Readings) (msgType : MessageType) (payload : Str)

def encrypted (codec : CryptoCodec) : Except Error Str := do
  let data ← CryptoCodec.utf8 payload
  codec.encrypt reprOf r.now r.draws data msgType

def frameOf (encJson : Str) : Option Bytes := (encodeUtf8 encJson).bind (sendFrame · .text)

def attempt (wire : Option Wire) : Attempt :=
  match wire with
  | some wire => if r.written then ⟨some wire, true⟩ else ⟨none, false⟩
  | none => ⟨none, false⟩

def wireOf (c : Connection) : Option Wire := do
  let codec ← c.codec
  let encJson ← (encrypted reprOf r msgType payload codec).toOption
  match c.server with
  | .agentHandler => some (.message encJson)
  | .manualServer => (frameOf encJson).map .frame

def sendEncrypted (codec : Option CryptoCodec) : Attempt :=
  match codec with
  | none => ⟨none, false⟩
  | some codec =>
      match encrypted reprOf r msgType payload codec with
      | .error _ => ⟨none, false⟩
      | .ok encJson => attempt r (some (.message encJson))

-- codec is None until the handshake is done: cd.encrypt is an AttributeError then.
def sendEncryptedManual (codec : Option CryptoCodec) : Attempt :=
  match codec with
  | none => ⟨none, false⟩
  | some codec =>
      match encrypted reprOf r msgType payload codec with
      | .error _ => ⟨none, false⟩
      | .ok encJson => attempt r ((frameOf encJson).map .frame)

def Connection.send (c : Connection) : Called :=
  match c.server with
  | .agentHandler => .coroutine (sendEncrypted reprOf r msgType payload c.codec)
  | .manualServer => .value (sendEncryptedManual reprOf r msgType payload c.codec)

def Called.awaited (c : Connection) : Called → Outcome
  | .coroutine run => ⟨run.wrote.toList.map (c, ·), .ok run.returned⟩
  | .value run => ⟨run.wrote.toList.map (c, ·), .error .typeError⟩

variable {K : Type}

def sendTo (found : Option (AgentInfo K Connection)) : Outcome :=
  match found with
  | none => ⟨[], .ok false⟩
  | some info => (info.send.send reprOf r msgType payload).awaited info.send

variable [DecidableEq K] (m : AgentManager K Connection)

def sendToAgent (agentId : K) : Outcome := sendTo reprOf r msgType payload (m.getByAgent agentId)

def sendToProject [NoneTest K] (project : K) : Outcome := sendTo reprOf r msgType payload (m.getByProject project)

end Send

section Reports

variable {K : Type}

def FrameWritten (reprOf : Value → Str) (r : Readings) (msgType : MessageType) (payload : Str)
    (found : Option (AgentInfo K Connection)) (o : Outcome) : Prop :=
  ∃ info wire, found = some info ∧ wireOf reprOf r msgType payload info.send = some wire ∧
    (info.send, wire) ∈ o.written

def Reports (reprOf : Value → Str) (r : Readings) (msgType : MessageType) (payload : Str)
    (found : Option (AgentInfo K Connection)) (o : Outcome) : Prop :=
  ∃ returned, o.result = .ok returned ∧ (returned = true ↔ FrameWritten reprOf r msgType payload found o)

def OverAgentHandler (found : Option (AgentInfo K Connection)) : Prop :=
  ∀ info, found = some info → info.send.server = .agentHandler

variable {reprOf : Value → Str} {r : Readings} {msgType : MessageType} {payload : Str}

theorem attempt_wrote {wire : Option Wire} :
    (attempt r wire).wrote = if (attempt r wire).returned then wire else none := by
  cases wire with
  | none => rfl
  | some wire => cases h : r.written <;> simp [attempt, h]

theorem returned_some {wire : Option Wire} (h : (attempt r wire).returned = true) : wire.isSome := by
  cases wire with
  | none => cases h
  | some wire => rfl

theorem sendEncrypted_eq (codec : Option CryptoCodec) :
    sendEncrypted reprOf r msgType payload codec =
      attempt r (wireOf reprOf r msgType payload ⟨.agentHandler, codec⟩) := by
  cases codec with
  | none => rfl
  | some codec =>
      simp only [sendEncrypted, wireOf, Option.bind_eq_bind, Option.bind_some]
      cases encrypted reprOf r msgType payload codec <;> rfl

theorem reports_none : Reports reprOf r msgType payload (none : Option (AgentInfo K Connection))
    (sendTo reprOf r msgType payload (none : Option (AgentInfo K Connection))) := by
  refine ⟨false, rfl, iff_of_false Bool.false_ne_true ?_⟩
  rintro ⟨info, wire, h, -⟩
  cases h

theorem reports_agentHandler {info : AgentInfo K Connection} (h : info.send.server = .agentHandler) :
    Reports reprOf r msgType payload (some info) (sendTo reprOf r msgType payload (some info)) := by
  obtain ⟨agentId, projects, ⟨server, codec⟩⟩ := info
  obtain rfl : server = .agentHandler := h
  simp only [sendTo, Connection.send, Called.awaited, sendEncrypted_eq]
  generalize hwire : wireOf reprOf r msgType payload ⟨.agentHandler, codec⟩ = wire
  refine ⟨_, rfl, fun hret => ?_, ?_⟩
  · obtain ⟨w, rfl⟩ := Option.isSome_iff_exists.mp (returned_some hret)
    refine ⟨_, w, rfl, hwire, ?_⟩
    rw [attempt_wrote, if_pos hret]
    exact List.mem_singleton_self _
  · rintro ⟨info, w, -, -, hmem⟩
    rw [attempt_wrote] at hmem
    split at hmem
    · assumption
    · cases hmem

theorem raises_manualServer {info : AgentInfo K Connection} (h : info.send.server = .manualServer) :
    (sendTo reprOf r msgType payload (some info)).result = .error .typeError := by
  rw [sendTo, Connection.send, h]
  rfl

theorem reports_iff (found : Option (AgentInfo K Connection)) :
    Reports reprOf r msgType payload found (sendTo reprOf r msgType payload found) ↔ OverAgentHandler found := by
  cases found with
  | none => exact iff_of_true reports_none nofun
  | some info =>
      constructor
      · rintro ⟨returned, hresult, -⟩ _ heq
        cases heq
        cases hserver : info.send.server with
        | agentHandler => rfl
        | manualServer => cases hresult.symm.trans (raises_manualServer hserver)
      · exact fun h => reports_agentHandler (h info rfl)

variable [DecidableEq K] [NoneTest K]

theorem send_reported_iff (reprOf : Value → Str) (r : Readings) (msgType : MessageType) (payload : Str)
    (m : AgentManager K Connection) :
    (∀ agentId, Reports reprOf r msgType payload (m.getByAgent agentId)
        (sendToAgent reprOf r msgType payload m agentId) ↔ OverAgentHandler (m.getByAgent agentId)) ∧
      ∀ project, Reports reprOf r msgType payload (m.getByProject project)
        (sendToProject reprOf r msgType payload m project) ↔ OverAgentHandler (m.getByProject project) :=
  ⟨fun _ => reports_iff _, fun _ => reports_iff _⟩

end Reports

section Sample

def sampleCodec : CryptoCodec where
  cipher :=
    { key := List.replicate 32 0
      aead :=
        { encrypt := fun _ plaintext => .ok (plaintext ++ List.replicate 16 0)
          decrypt := fun _ _ => .error [] }
      key_size := rfl }
  signer := ⟨none, none⟩
  verifier := ⟨none, none⟩
  guard := .fresh 300

def sampleReadings : Readings := ⟨0, ⟨List.replicate 16 0, List.replicate 16 0, List.replicate 12 0, []⟩, true⟩

def sampleManager : AgentManager Str Connection :=
  AgentManager.empty.addAgent (str "agent-a") [str "alpha"] ⟨.manualServer, some sampleCodec⟩

def sampleSend : Outcome :=
  sendToProject (fun _ => []) sampleReadings .buildTrigger (str "\x7b\x7d") sampleManager (str "alpha")

theorem delivered_but_raised : sampleSend.written ≠ [] ∧ sampleSend.result = .error .typeError := by
  decide +kernel

end Sample

end Ws.Sending
