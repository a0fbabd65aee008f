import JdRelay.Base.Runs
import JdRelay.Agent.CryptoCodec

namespace Agent.WsClient
open Text Json Crypto Runs

structure Client where
  nl : Nlohmann
  ssl : OpenSsl
  hasMessageCb : Bool

structure Readings where
  now₁ : Int
  now₂ : Int
  now₃ : Int
  draws : Draws
  written : Bool
  iv_size : draws.iv.length = 12

inductive Output where
  | ack (payload : Str) (sent : Bool)
  | dispatched (type : MessageType) (plaintext : Bytes)
  deriving DecidableEq

def heartbeatAck : Str := str "\x7b\"ack\":\"heartbeat\"\x7d"

def triggerAck (msgId : Str) : Str := str "\x7b\"msg_id\":\"" ++ msgId ++ str "\",\"status\":\"received\"\x7d"

section IoLoop

variable (client : Client)

-- codec_ and ws_ are set throughout io_loop. encrypt draws from the codec and leaves it as it is.
def send (connected running : Bool) (codec : CryptoCodec) (r : Readings) (type : MessageType) (payload : Str) :
    Except Exn Bool :=
  if !connected || !running then .ok false
  else
    match codec.encrypt client.ssl r.now₃ r.draws (bytes payload) type with
    | .error e => .error e
    | .ok _ => .ok r.written

def handleAccepted (connected running : Bool) (codec : CryptoCodec) (r : Readings) (env : CryptoEnvelope)
    (plaintext : Bytes) : Except Exn (List Output) := do
  let type ← parseMessageType env.type
  if type = .heartbeat then
    let sent ← send client connected running codec r .ack heartbeatAck
    .ok [.ack heartbeatAck sent]
  else if type = .ack then .ok []
  else
    let dispatch := if client.hasMessageCb then [Output.dispatched type plaintext] else []
    if type = .buildTrigger then
      let sent ← send client connected running codec r .ack (triggerAck env.msgId)
      .ok (.ack (triggerAck env.msgId) sent :: dispatch)
    else .ok dispatch

def handleEnvelope (connected running : Bool) (codec : CryptoCodec) (r : Readings) (env : CryptoEnvelope) :
    Except Exn (CryptoCodec × List Output) :=
  let (result, codec) := codec.decrypt client.ssl r.now₁ r.now₂ env
  if !result.ok then .ok (codec, [])
  else do
    let outputs ← handleAccepted client connected running codec r env result.plaintext
    .ok (codec, outputs)

def handleFrame (connected running : Bool) (codec : CryptoCodec) (r : Readings) (jsonStr : Bytes) :
    Except Exn (CryptoCodec × List Output) := do
  let env ← CryptoCodec.fromJson client.nl jsonStr
  handleEnvelope client connected running codec r env

end IoLoop

-- Where the thread of run stands: at the head of its loop or of io_loop, in a call that waits for the network, or behind
-- it. An exception that leaves run ends the process.
inductive Position where
  | loopHead
  | connecting
  | ioHead (codec : CryptoCodec)
  | reading (codec : CryptoCodec)
  | handling (codec : CryptoCodec) (jsonStr : Bytes)
  | waiting
  | ended
  | terminated (e : Exn)

structure State where
  running : Bool
  connected : Bool
  backoff : Nat
  position : Position
  log : List Output

inductive Connect where
  | threw
  | rejected
  | established (codec : CryptoCodec)

inductive Event where
  | checkRunning
  | connect (outcome : Connect)
  | read (frame : Option Bytes)
  | handle (r : Readings)
  | wake
  | stop

def State.reset (s : State) : State :=
  { s with connected := false, position := if s.running then .waiting else .ended }

section Run

variable (client : Client)

def step (s : State) : Event → Option State
  | .checkRunning =>
      match s.position with
      | .loopHead => some { s with position := if s.running then .connecting else .ended }
      | .ioHead codec => some (if s.running then { s with position := .reading codec } else s.reset)
      | _ => none
  -- A call that waits when stop comes still returns what the network gives it.
  | .connect outcome =>
      match s.position with
      | .connecting =>
          match outcome with
          | .established codec => some { s with connected := true, backoff := 1, position := .ioHead codec }
          | .threw => some s.reset
          | .rejected => some s.reset
      | _ => none
  | .read frame =>
      match s.position with
      | .reading codec =>
          match frame with
          | some jsonStr => some { s with position := .handling codec jsonStr }
          | none => some s.reset
      | _ => none
  | .handle r =>
      match s.position with
      | .handling codec jsonStr =>
          match handleFrame client s.connected s.running codec r jsonStr with
          | .ok (codec, outputs) => some { s with position := .ioHead codec, log := s.log ++ outputs }
          | .error e => some { s with position := .terminated e }
      | _ => none
  | .wake =>
      match s.position with
      | .waiting => some { s with backoff := min (s.backoff * 2) 30, position := .loopHead }
      | _ => none
  | .stop => some { s with running := false }

def machine : Machine State Event where
  init := { running := true, connected := false, backoff := 1, position := .loopHead, log := [] }
  step := step client

end Run

def Terminated (s : State) : Prop := ∃ e, s.position = .terminated e

def EndedByStop (s : State) : Prop := s.position = .ended → s.running = false

def Alive (s : State) : Prop := ¬ Terminated s ∧ EndedByStop s

def ackOf (env : CryptoEnvelope) : MessageType → Option Str
  | .heartbeat => some heartbeatAck
  | .buildTrigger => some (triggerAck env.msgId)
  | _ => none

section Harmless

variable (client : Client)

def AckEncrypts (connected running : Bool) (codec : CryptoCodec) (draws : Draws) (env : CryptoEnvelope)
    (type : MessageType) : Prop :=
  ∀ payload ∈ ackOf env type, connected = true → running = true → codec.Encrypts draws (bytes payload)

def HarmlessFrame (connected running : Bool) (codec : CryptoCodec) (r : Readings) (jsonStr : Bytes) : Prop :=
  ∃ fields, client.nl.parse jsonStr = some (.obj fields) ∧ CryptoCodec.WellTyped client.nl fields ∧
    (codec.Accepts client.ssl r.now₁ (CryptoCodec.ofFields client.nl fields) →
      ∃ type, (CryptoCodec.ofFields client.nl fields).type = MessageType.value type ∧
        AckEncrypts connected running codec r.draws (CryptoCodec.ofFields client.nl fields) type)

def Harmless (s : State) : Event → Prop
  | .handle r => ∀ codec jsonStr, s.position = .handling codec jsonStr →
      HarmlessFrame client s.connected s.running codec r jsonStr
  | _ => True

variable {client : Client} {connected running : Bool} {codec : CryptoCodec} {r : Readings}

theorem send_ok_iff {type : MessageType} {payload : Str} :
    (∃ sent, send client connected running codec r type payload = .ok sent) ↔
      (connected = true → running = true → codec.Encrypts r.draws (bytes payload)) := by
  by_cases hopen : connected = true ∧ running = true
  · obtain ⟨rfl, rfl⟩ := hopen
    have hencrypt : (∃ env, codec.encrypt client.ssl r.now₃ r.draws (bytes payload) type = .ok env) ↔
        codec.Encrypts r.draws (bytes payload) := CryptoCodec.encrypt_ok_iff client.ssl codec r.iv_size
    simp only [send, Bool.not_true, Bool.or_false, Bool.false_eq_true, if_false, forall_const, ← hencrypt]
    cases codec.encrypt client.ssl r.now₃ r.draws (bytes payload) type <;> simp
  · have hclosed : (!connected || !running) = true := by
      cases connected <;> cases running <;> simp_all
    rw [send, if_pos hclosed]
    exact ⟨fun _ hc hr => absurd ⟨hc, hr⟩ hopen, fun _ => ⟨false, rfl⟩⟩

theorem exists_bind_ok {A B : Type} {x : Except Exn A} {f : A → B} :
    (∃ b, (x >>= fun a => .ok (f a)) = .ok b) ↔ ∃ a, x = .ok a := by
  cases x <;> simp [bind, Except.bind]

theorem handleAccepted_ok_iff {env : CryptoEnvelope} {plaintext : Bytes} :
    (∃ outputs, handleAccepted client connected running codec r env plaintext = .ok outputs) ↔
      ∃ type, env.type = MessageType.value type ∧ AckEncrypts connected running codec r.draws env type := by
  have hack (payload : Str) (type : MessageType) (hpayload : ackOf env type = some payload) :
      (∃ sent, send client connected running codec r .ack payload = .ok sent) ↔
        AckEncrypts connected running codec r.draws env type := by
    rw [send_ok_iff, AckEncrypts, hpayload]
    simp
  have hnone (type : MessageType) (hpayload : ackOf env type = none) :
      AckEncrypts connected running codec r.draws env type := by simp [AckEncrypts, hpayload]
  rw [handleAccepted]
  simp only [Python.bind_ok, parseMessageType_ok]
  rw [exists_comm]
  refine exists_congr fun type => ?_
  rw [exists_and_left]
  refine and_congr_right fun _ => ?_
  cases type with
  | heartbeat => exact exists_bind_ok.trans (hack heartbeatAck .heartbeat rfl)
  | buildTrigger => exact exists_bind_ok.trans (hack (triggerAck env.msgId) .buildTrigger rfl)
  | _ => exact ⟨fun _ => hnone _ rfl, fun _ => ⟨_, rfl⟩⟩

theorem encrypts_decrypt {now₁ now₂ : Int} {env : CryptoEnvelope} {draws : Draws} {plaintext : Bytes} :
    (codec.decrypt client.ssl now₁ now₂ env).2.Encrypts draws plaintext ↔ codec.Encrypts draws plaintext := by
  simp only [CryptoCodec.Encrypts, CryptoCodec.decrypt]
  split_ifs <;> rfl

theorem handleEnvelope_ok_iff {env : CryptoEnvelope} :
    (∃ out, handleEnvelope client connected running codec r env = .ok out) ↔
      (codec.Accepts client.ssl r.now₁ env →
        ∃ type, env.type = MessageType.value type ∧ AckEncrypts connected running codec r.draws env type) := by
  have haccepts : (codec.decrypt client.ssl r.now₁ r.now₂ env).1.ok = true ↔ codec.Accepts client.ssl r.now₁ env :=
    CryptoCodec.decrypt_ok_iff client.ssl codec
  rw [handleEnvelope, ← haccepts]
  by_cases hok : (codec.decrypt client.ssl r.now₁ r.now₂ env).1.ok = true
  · simp only [hok, Bool.not_true, Bool.false_eq_true, if_false, exists_bind_ok, handleAccepted_ok_iff, AckEncrypts,
      encrypts_decrypt, forall_const]
  · simp [hok]

theorem handleFrame_ok_iff {jsonStr : Bytes} :
    (∃ out, handleFrame client connected running codec r jsonStr = .ok out) ↔
      HarmlessFrame client connected running codec r jsonStr := by
  simp only [handleFrame, Python.bind_ok, CryptoCodec.fromJson_ok_iff, HarmlessFrame, ← handleEnvelope_ok_iff]
  constructor
  · rintro ⟨out, _, ⟨fields, hparse, htyped, rfl⟩, hout⟩
    exact ⟨fields, hparse, htyped, out, hout⟩
  · rintro ⟨fields, hparse, htyped, out, hout⟩
    exact ⟨out, _, ⟨fields, hparse, htyped, rfl⟩, hout⟩

end Harmless

section Run

variable {client : Client} {s t : State} {e : Event}

theorem alive_reset (s : State) : Alive s.reset := by
  unfold Alive Terminated EndedByStop State.reset
  cases s.running <;> simp

theorem alive_of_position {p : Position} (hp : s.position = p) (hlive : ∀ err, p ≠ .terminated err) (hend : p ≠ .ended) :
    Alive s := by
  subst hp
  exact ⟨fun ⟨err, herr⟩ => hlive err herr, fun h => absurd h hend⟩

theorem step_cases (hs : Alive s) (h : step client s e = some t) :
    (Alive t ∧ ∀ r, e ≠ .handle r) ∨
      ∃ r codec jsonStr, e = .handle r ∧ s.position = .handling codec jsonStr ∧
        ((∃ out, handleFrame client s.connected s.running codec r jsonStr = .ok out ∧
            t.position = .ioHead out.1) ∨
          ∃ err, handleFrame client s.connected s.running codec r jsonStr = .error err ∧
            t.position = .terminated err) := by
  cases e with
  | checkRunning =>
      refine .inl ⟨?_, nofun⟩
      simp only [step] at h
      split at h
      · cases h
        split
        · exact alive_of_position rfl nofun nofun
        · rename_i hstopped
          exact ⟨nofun, fun _ => by simpa using hstopped⟩
      · cases h
        split
        · exact alive_of_position rfl nofun nofun
        · exact alive_reset s
      · cases h
  | connect outcome =>
      refine .inl ⟨?_, nofun⟩
      simp only [step] at h
      split at h
      · cases outcome with
        | established codec => cases h; exact alive_of_position rfl nofun nofun
        | threw => cases h; exact alive_reset s
        | rejected => cases h; exact alive_reset s
      · cases h
  | read frame =>
      refine .inl ⟨?_, nofun⟩
      simp only [step] at h
      split at h
      · split at h
        · cases h
          exact alive_of_position rfl nofun nofun
        · cases h
          exact alive_reset s
      · cases h
  | handle r =>
      simp only [step] at h
      split at h
      · rename_i codec jsonStr hposition
        refine .inr ⟨r, codec, jsonStr, rfl, hposition, ?_⟩
        split at h
        · rename_i codec' outputs hout
          cases h
          exact .inl ⟨_, hout, rfl⟩
        · rename_i err herr
          cases h
          exact .inr ⟨err, herr, rfl⟩
      · cases h
  | wake =>
      refine .inl ⟨?_, nofun⟩
      simp only [step] at h
      split at h
      · cases h
        exact alive_of_position rfl nofun nofun
      · cases h
  | stop =>
      cases h
      exact .inl ⟨⟨hs.1, fun _ => rfl⟩, nofun⟩

theorem alive_step (hs : Alive s) (h : step client s e = some t) : Alive t ↔ Harmless client s e := by
  rcases step_cases hs h with ⟨hlive, hne⟩ | ⟨r, codec, jsonStr, rfl, hposition, hout⟩
  · refine iff_of_true hlive ?_
    cases e with
    | handle r => exact absurd rfl (hne r)
    | _ => trivial
  · have hharmless : Harmless client s (.handle r) ↔ HarmlessFrame client s.connected s.running codec r jsonStr := by
      simp only [Harmless, hposition, Position.handling.injEq, and_imp]
      refine ⟨fun hall => hall _ _ rfl rfl, fun hframe _ _ => ?_⟩
      rintro rfl rfl
      exact hframe
    rw [hharmless, ← handleFrame_ok_iff]
    rcases hout with ⟨out, hok, ht⟩ | ⟨err, herr, ht⟩
    · exact iff_of_true (alive_of_position ht nofun nofun) ⟨out, hok⟩
    · refine iff_of_false (fun hlive => hlive.1 ⟨err, ht⟩) ?_
      rintro ⟨out, hok⟩
      cases herr.symm.trans hok

end Run

theorem run_alive_iff (client : Client) {es : List Event} (h : (machine client).IsRun es) :
    (machine client).Always Alive (machine client).init es ↔
      (machine client).Guarded (Harmless client) (machine client).init es := by
  have hinit : Alive (machine client).init := alive_of_position rfl nofun nofun
  have htrue : ∀ {s : State} {e : Event} {t : State}, True → (machine client).step s e = some t → True :=
    fun _ _ => trivial
  exact (machine client).always_iff_guarded htrue (fun _ hs ht => alive_step hs ht) trivial hinit h

def sampleClient : Client where
  nl := { parse := fun text => (decodeUtf8 text).bind loads, ofDouble := fun _ => 0, boolAsLongLong := true }
  ssl := { bioWrite := Base64Text.bioText, bioRead := fun text => ((decodeUtf8 text).bind b64Decode).getD [] }
  hasMessageCb := true

def sampleCodec : CryptoCodec where
  cipher :=
    { evpEncrypt := fun _ _ _ => .error (str "EVP_EncryptUpdate failed")
      evpDecrypt := fun _ _ _ _ => .error (str "AES-GCM authentication tag verification failed") }
  signer := ⟨none, none⟩
  verifier := ⟨none, none⟩
  guard := .fresh 300

def sampleReadings : Readings where
  now₁ := 1700000000000
  now₂ := 1700000000000
  now₃ := 1700000000000
  draws := { uuid := List.replicate 16 0, nonce := List.replicate 16 0, iv := List.replicate 12 0, entropy := [] }
  written := true
  iv_size := rfl

-- The frame is an empty JSON object: read with its defaults and turned down for its timestamp.
def rejectedRun : List Event :=
  [.checkRunning, .connect .threw, .wake, .checkRunning, .connect (.established sampleCodec), .checkRunning,
    .read (some (bytes (str "\x7b\x7d"))), .handle sampleReadings, .checkRunning, .read none, .wake, .checkRunning, .stop,
    .connect .rejected]

theorem run_alive_iff_rejectedRun :
    (machine sampleClient).Always Alive (machine sampleClient).init rejectedRun ↔
      (machine sampleClient).Guarded (Harmless sampleClient) (machine sampleClient).init rejectedRun :=
  run_alive_iff sampleClient (by decide)

def malformedRun : List Event :=
  [.checkRunning, .connect (.established sampleCodec), .checkRunning, .read (some (bytes (str "x"))),
    .handle sampleReadings]

theorem malformed_terminates :
    (machine sampleClient).IsRun malformedRun ∧
      ¬ (machine sampleClient).Always Alive (machine sampleClient).init malformedRun := by
  refine ⟨by decide, fun h => ?_⟩
  have hlast := h.2 _ rfl |>.2 _ rfl |>.2 _ rfl |>.2 _ rfl |>.2 _ rfl
  exact hlast.1 ⟨_, rfl⟩

end Agent.WsClient
