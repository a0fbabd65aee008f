import JdRelay.Base.Python
import JdRelay.Crypto.Base64

namespace Crypto
open Text Json

inductive MessageType where
  | buildTrigger
  | buildResult
  | sensitiveReviewReq
  | secondReviewResult
  | heartbeat
  | ack
  deriving DecidableEq

namespace MessageType

def value : MessageType → Str
  | buildTrigger => str "BUILD_TRIGGER"
  | buildResult => str "BUILD_RESULT"
  | sensitiveReviewReq => str "SENSITIVE_REVIEW_REQ"
  | secondReviewResult => str "SECOND_REVIEW_RESULT"
  | heartbeat => str "HEARTBEAT"
  | ack => str "ACK"

def members : List MessageType :=
  [buildTrigger, buildResult, sensitiveReviewReq, secondReviewResult, heartbeat, ack]

def parse (s : Str) : Except Python.Error MessageType :=
  match members.find? (·.value = s) with
  | some t => .ok t
  | none => .error .valueError

theorem parse_value (t : MessageType) : parse t.value = .ok t := by cases t <;> rfl

theorem bar_notMem_value (t : MessageType) : bar ∉ t.value := by cases t <;> decide

end MessageType

-- Every field keeps the JSON value it was parsed from: from_json checks no types.
structure CryptoEnvelope where
  msgId : Value := .str []
  timestamp : Value := .int 0
  nonce : Value := .str []
  type : Value := .str []
  iv : Value := .str []
  ciphertext : Value := .str []
  tag : Value := .str []
  signature : Value := .str []
  deriving DecidableEq

namespace CryptoEnvelope

def joinItem : Value → Except Python.Error Str
  | .str s => .ok s
  | _ => .error .typeError

def buildSigningPayload (reprOf : Value → Str) (env : CryptoEnvelope) : Except Python.Error Str := do
  let msgId ← joinItem env.msgId
  let nonce ← joinItem env.nonce
  let type ← joinItem env.type
  let iv ← joinItem env.iv
  let ciphertext ← joinItem env.ciphertext
  let tag ← joinItem env.tag
  .ok (join bar [msgId, Python.strOf reprOf env.timestamp, nonce, type, iv, ciphertext, tag])

def toJson (env : CryptoEnvelope) : Str :=
  dumpsWith .compact (.obj
    [(str "msg_id", env.msgId),
      (str "timestamp", env.timestamp),
      (str "nonce", env.nonce),
      (str "type", env.type),
      (str "iv", env.iv),
      (str "ciphertext", env.ciphertext),
      (str "tag", env.tag),
      (str "signature", env.signature)])

def ofFields (fields : List (Str × Value)) : CryptoEnvelope where
  msgId := Python.get fields "msg_id" (.str [])
  timestamp := Python.get fields "timestamp" (.int 0)
  nonce := Python.get fields "nonce" (.str [])
  type := Python.get fields "type" (.str [])
  iv := Python.get fields "iv" (.str [])
  ciphertext := Python.get fields "ciphertext" (.str [])
  tag := Python.get fields "tag" (.str [])
  signature := Python.get fields "signature" (.str [])

def fromJson (jsonStr : Str) : Except Python.Error CryptoEnvelope :=
  match loads jsonStr with
  | none => .error .jsonDecodeError
  | some (.obj fields) => .ok (ofFields fields)
  | some _ => .error .attributeError

theorem joinItem_ok {v : Value} {s : Str} : joinItem v = .ok s ↔ v = .str s := by
  cases v <;> simp [joinItem]

theorem buildSigningPayload_ok {reprOf : Value → Str} {env : CryptoEnvelope} {payload : Str}
    (h : buildSigningPayload reprOf env = .ok payload) :
    ∃ msgId nonce type iv ciphertext tag,
      env.msgId = .str msgId ∧ env.nonce = .str nonce ∧ env.type = .str type ∧ env.iv = .str iv ∧
      env.ciphertext = .str ciphertext ∧ env.tag = .str tag ∧
      payload = join bar [msgId, Python.strOf reprOf env.timestamp, nonce, type, iv, ciphertext, tag] := by
  simp only [buildSigningPayload, Python.bind_ok, joinItem_ok] at h
  obtain ⟨msgId, h₁, nonce, h₂, type, h₃, iv, h₄, ciphertext, h₅, tag, h₆, hp⟩ := h
  exact ⟨msgId, nonce, type, iv, ciphertext, tag, h₁, h₂, h₃, h₄, h₅, h₆, (Except.ok.inj hp).symm⟩

end CryptoEnvelope
end Crypto
