import JdRelay.Agent.Transit
import JdRelay.Agent.WsClient
import JdRelay.Ws.Sending

namespace Ws.IoLoop
open Text Json Crypto
open Agent (Exn)
open Agent.Transit (msgType)
open Agent.WsClient (Client)

inductive Action (P : Type) where
  | ack (payload : Str)
  | dispatch (type : MessageType) (plaintext : P)
  deriving DecidableEq

section Agent

def agentActions (hasMessageCb : Bool) (msgId : Str) (plaintext : Bytes) (type : MessageType) : List (Action Bytes) :=
  if type = .heartbeat then [.ack Agent.WsClient.heartbeatAck]
  else if type = .ack then []
  else
    (if type = .buildTrigger then [.ack (Agent.WsClient.triggerAck msgId)] else []) ++
      (if hasMessageCb then [.dispatch type plaintext] else [])

def agentTake (client : Client) (codec : Agent.CryptoCodec) (now₁ now₂ : Int) (jsonStr : Bytes) :
    Except Exn (Agent.CryptoCodec × List (Action Bytes)) := do
  let env ← Agent.CryptoCodec.fromJson client.nl jsonStr
  let (result, codec) := codec.decrypt client.ssl now₁ now₂ env
  if !result.ok then .ok (codec, [])
  else do
    let type ← Agent.parseMessageType env.type
    .ok (codec, agentActions client.hasMessageCb env.msgId result.plaintext type)

variable {client : Client} {codec : Agent.CryptoCodec}

theorem agentTake_eq {codec' : Agent.CryptoCodec} {now₁ now₂ : Int} {jsonStr plaintext : Bytes}
    {env : Agent.CryptoEnvelope} {type : MessageType} (henv : Agent.CryptoCodec.fromJson client.nl jsonStr = .ok env)
    (hdecrypt : codec.decrypt client.ssl now₁ now₂ env = ({ plaintext, ok := true }, codec'))
    (htype : env.type = type.value) :
    agentTake client codec now₁ now₂ jsonStr =
      .ok (codec', agentActions client.hasMessageCb env.msgId plaintext type) := by
  simp only [agentTake, henv, hdecrypt, bind, Except.bind, Bool.not_true, Bool.false_eq_true, if_false, htype,
    Agent.parseMessageType_value]

end Agent

section Forwarder

def heartbeatAck : Str := dumps (.obj [(str "ack", .str (str "heartbeat"))])

def triggerAck (msgId : Value) : Str :=
  dumps (.obj [(str "msg_id", msgId), (str "status", .str (str "received"))])

-- A plaintext that is not UTF-8 is logged as an error of message_cb.
def forwarderActions (hasMessageCb : Bool) (msgId : Value) (plaintext : Bytes) (type : MessageType) :
    List (Action Str) :=
  if type = .ack then []
  else if type = .heartbeat then [.ack heartbeatAck]
  else
    (if type = .buildTrigger then [.ack (triggerAck msgId)] else []) ++
      (if hasMessageCb then (decodeUtf8 plaintext).toList.map (.dispatch type) else [])

-- An error leaves the loop; an unknown type is skipped.
def forwarderTake (reprOf : Value → Str) (hasMessageCb : Bool) (codec : CryptoCodec) (now₁ now₂ : Int) (raw : Str) :
    Except Python.Error (CryptoCodec × List (Action Str)) := do
  let (result, codec) := codec.decrypt reprOf now₁ now₂ raw
  let result ← result
  if !result.ok then .ok (codec, [])
  else do
    let env ← CryptoEnvelope.fromJson raw
    match msgType env.type with
    | .error _ => .ok (codec, [])
    | .ok type => .ok (codec, forwarderActions hasMessageCb env.msgId result.plaintext type)

theorem forwarderTake_eq {reprOf : Value → Str} {hasMessageCb : Bool} {codec codec' : CryptoCodec} {now₁ now₂ : Int}
    {raw : Str} {plaintext : Bytes} {env : CryptoEnvelope} {type : MessageType}
    (henv : CryptoEnvelope.fromJson raw = .ok env)
    (hdecrypt : codec.decrypt reprOf now₁ now₂ raw = (.ok { plaintext, ok := true }, codec'))
    (htype : msgType env.type = .ok type) :
    forwarderTake reprOf hasMessageCb codec now₁ now₂ raw =
      .ok (codec', forwarderActions hasMessageCb env.msgId plaintext type) := by
  simp only [forwarderTake, henv, hdecrypt, bind, Except.bind, Bool.not_true, Bool.false_eq_true, if_false, htype]

def forwarderPut (reprOf : Value → Str) (codec : CryptoCodec) (r : Sending.Readings) (type : MessageType)
    (payload : Str) : Sending.Attempt := Sending.sendEncrypted reprOf r type payload (some codec)

end Forwarder

end Ws.IoLoop
