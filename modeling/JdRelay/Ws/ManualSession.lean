import Mathlib.Data.List.TakeWhile
import JdRelay.Ws.ManualClient
import JdRelay.Ws.Traffic

namespace Ws.ManualSession
open Text Json Crypto IoLoop Dispatch Establish Traffic ManualClient
open Agent (bytes)
open Agent.Handshake (Config Attempt sendInit)
open Agent.Interop (embed)
open Agent.Transit (AesGcm Opens Bio ReadsFlat)
open ManualServer (Piece Closing Kind sendAck messageCb handleAccepted envelopeOf handleText)
open SocketReader (Socket recvFrame)

section Actions

variable (reprOf : Value → Str) (hasMessageCb : Bool)

def ackActions (codec : CryptoCodec) (r : ManualServer.Readings) (payload : Str) : List (Action Str) :=
  if (sendAck reprOf codec r payload).isSome then [.ack payload] else []

def callbackActions (type : MessageType) (plaintext : Bytes) : List (Action Str) :=
  if hasMessageCb then (decodeUtf8 plaintext).toList.map (.dispatch type) else []

def acceptedActions (codec : CryptoCodec) (r : ManualServer.Readings) (env : CryptoEnvelope) (type : MessageType)
    (plaintext : Bytes) : List (Action Str) :=
  if type = .heartbeat then ackActions reprOf codec r Agent.WsClient.heartbeatAck
  else if type = .ack then []
  else if type = .buildTrigger then
    match sendAck reprOf codec r (triggerAck env.msgId) with
    | none => []
    | some _ => .ack (triggerAck env.msgId) :: callbackActions hasMessageCb type plaintext
  else callbackActions hasMessageCb type plaintext

def textActions (codec : CryptoCodec) (r : ManualServer.Readings) (text : Str) : List (Action Str) :=
  match codec.decrypt reprOf r.now₁ r.now₂ text with
  | (.error _, _) => []
  | (.ok result, codec) =>
      if !result.ok then []
      else
        match envelopeOf text with
        | .ok (env, type) => acceptedActions reprOf hasMessageCb codec r env type result.plaintext
        | .error _ => []

variable (c : Call)

def loopActions : Nat → Nat → CryptoCodec → Socket → List (Action Str)
  | 0, _, _, _ => []
  | fuel + 1, i, codec, s =>
      if !c.running i then []
      else
        match recvFrame s with
        | (.frame opcode payload, s) =>
            if opcode = 0x8 then []
            else
              match decodeUtf8 payload with
              | none => []
              | some text =>
                  textActions c.lib.reprOf (c.hasMessageCb && c.loop) codec (c.readings i) text ++
                    match handleText c.lib.reprOf (c.hasMessageCb && c.loop) codec (c.readings i) text with
                    | none => []
                    | some codec => loopActions fuel (i + 1) codec s
        | _ => []

def opened (conn : Socket) : Option (Handshake.Session × Socket) :=
  match conn.recv 4096 with
  | none => none
  | some (data, conn) =>
      if (clientKey data).isNone || !c.upgraded then none
      else
        match recvFrame conn with
        | (.frame _ initRaw, conn) =>
            match ManualHandshake.handshake c.lib c.own initRaw with
            | .done session _ => some (session, conn)
            | _ => none
        | _ => none

def clientActions (fuel : Nat) (conn : Socket) : List (Action Str) :=
  match opened c conn with
  | none => []
  | some (session, conn) => if c.loop && !c.added then [] else loopActions c fuel 0 (codecOf c session) conn

variable {c} {fuel : Nat} {conn conn' : Socket} {session : Handshake.Session}

theorem tryBody_opened (h : opened c conn = some (session, conn')) : tryBody c fuel conn = serve c fuel session conn' := by
  unfold opened at h
  split at h
  · cases h
  rename_i data conn₁ hrecv
  split at h
  · cases h
  rename_i hgoes
  simp only [Bool.or_eq_true, not_or, Bool.not_eq_true, Bool.not_eq_false'] at hgoes
  obtain ⟨hkey, hupgraded⟩ := hgoes
  split at h
  · rename_i opcode initRaw conn₂ hread
    split at h
    · rename_i session' ack hdone
      cases h
      cases hclient : clientKey data with
      | none => simp [hclient] at hkey
      | some key =>
          simp only [tryBody, hrecv, hclient, upgradedBody, hupgraded, Bool.not_true, Bool.false_eq_true, if_false, hread,
            received, hdone]
    · cases h
  · cases h

end Actions

section Messages

-- b'{"ack":"heartbeat"}' has no blank where json.dumps has one.
def manualAckText (m : Sent) : Str :=
  if m.type = .heartbeat then Agent.WsClient.heartbeatAck else triggerAck (.str m.msgId)

def acked (reprOf : Value → Str) (codec : CryptoCodec) (r : ManualServer.Readings) (m : Sent) : Bool :=
  !decide (Answered m) || (sendAck reprOf codec r (manualAckText m)).isSome

def served (c : Call) (codec : CryptoCodec) (i : Nat) (ms : List Sent) : List (Action Str) :=
  ((ms.zipIdx i).takeWhile fun q => c.running q.2 && acked c.lib.reprOf codec (c.readings q.2) q.1).flatMap fun q =>
    reaction manualAckText id q.1

def textFrame (piece : Piece) : ManualServer.Frame := ⟨true, .text, piece⟩

inductive Wrote : List Str → Bytes → Prop where
  | nothing : Wrote [] []
  | close (closing : Closing) (rest : Bytes) : Wrote [] (closing.frame.wire ++ rest)
  | text {text : Str} {texts : List Str} {stream : Bytes} (piece : Piece) (h : encodeUtf8 text = some piece.payload)
      (rest : Wrote texts stream) : Wrote (text :: texts) ((textFrame piece).wire ++ stream)

structure FromAgent (d : Dispatch.Session) (limit : Nat) (ms : List Sent) : Prop where
  sent : ∀ m ∈ ms, ∃ r guard, r.written = true ∧ Scalar m.payload ∧ (bytes m.payload).length < limit ∧
    d.agentWire { d.agentCodec with guard } r m.type m.payload = .ok [m]
  distinct : (ms.filterMap nonceOf).Nodup

def InTime (c : Call) (i : Nat) (ms : List Sent) : Prop := ∀ q ∈ ms.zipIdx i, OnTime (c.readings q.2).now₁ q.1

end Messages

section Step

variable {reprOf : Value → Str} {codec : CryptoCodec} {guard : ReplayGuard Str} {r : ManualServer.Readings} {m : Sent}
  {env : CryptoEnvelope}

theorem isSome_sendAck_guard (payload : Str) : (sendAck reprOf { codec with guard } r payload).isSome =
    (sendAck reprOf codec r payload).isSome := by
  have hsame : Sending.sendEncryptedManual reprOf r.send .ack payload (some { codec with guard }) =
      Sending.sendEncryptedManual reprOf r.send .ack payload (some codec) := rfl
  unfold sendAck
  rw [hsame]
  cases (Sending.sendEncryptedManual reprOf r.send .ack payload (some codec)).returned <;> rfl

theorem acked_guard : acked reprOf { codec with guard } r m = acked reprOf codec r m := by
  rw [acked, acked, isSome_sendAck_guard]

theorem sendAck_some {payload : Str} {codec' : CryptoCodec} (h : sendAck reprOf codec r payload = some codec') :
    codec' = codec := by
  unfold sendAck at h
  split at h
  · exact (Option.some.inj h).symm
  · cases h

theorem handleAccepted_reaction (reprOf : Value → Str) (r : ManualServer.Readings) (codec : CryptoCodec)
    (hmsgId : env.msgId = .str m.msgId) (hpayload : Scalar m.payload) :
    handleAccepted reprOf true codec r env m.type (bytes m.payload) =
        (if acked reprOf codec r m then some codec else none) ∧
      acceptedActions reprOf true codec r env m.type (bytes m.payload) =
        if acked reprOf codec r m then reaction manualAckText id m else [] := by
  obtain ⟨type, payload, msgId, text⟩ := m
  obtain ⟨data, hdata⟩ := Option.isSome_iff_exists.mp (scalar_iff.mpr hpayload)
  have hbytes : decodeUtf8 (bytes payload) = some payload := by
    rw [bytes, hdata, Option.getD_some, decode_encode hdata]
  have hcallback : messageCb true codec (bytes payload) = some codec := by simp [messageCb, hbytes]
  have hactions : callbackActions true type (bytes payload) = [.dispatch type payload] := by
    simp [callbackActions, hbytes]
  cases type with
  | heartbeat =>
      simp only [handleAccepted, acceptedActions, ackActions, if_true, acked, manualAckText, Answered]
      cases hsent : sendAck reprOf codec r Agent.WsClient.heartbeatAck with
      | none => simp
      | some codec' => simp [sendAck_some hsent, reaction, Answered, Business, manualAckText]
  | buildTrigger =>
      simp only [handleAccepted, acceptedActions, reduceCtorEq, if_false, if_true, acked, manualAckText, Answered,
        hmsgId, hactions]
      cases hsent : sendAck reprOf codec r (triggerAck (.str msgId)) with
      | none => simp
      | some codec' => simp [sendAck_some hsent, hcallback, reaction, Answered, Business, manualAckText]
  | ack => simp [handleAccepted, acceptedActions, acked, reaction, Answered, Business]
  | _ => simp [handleAccepted, acceptedActions, acked, reaction, Answered, Business, hcallback, hactions]

variable {d : Dispatch.Session} {gcm : AesGcm} {genuine : Agent.CryptoEnvelope} {parts : Agent.Interop.Sealed} {now : Int}
  {draws : Draws}

theorem handleText_ready (codec : CryptoCodec) (hc : Carries gcm m genuine parts now draws)
    (h : Ready codec.guard codec.verifier r.now₁ m parts) (hopens : Opens gcm (.py codec)) :
    handleText d.reprOf true codec r m.text =
        (if acked d.reprOf codec r m then
          some { codec with guard := codec.guard.recordNonce r.now₂ (b64Encode draws.nonce) } else none) ∧
      textActions d.reprOf true codec r m.text =
        if acked d.reprOf codec r m then reaction manualAckText id m else [] := by
  obtain ⟨henv, htype, hmsgId, hdecrypt⟩ := h.decrypts (d := d) hc hopens r.now₂
  have henvelope : envelopeOf m.text = .ok (embed genuine, m.type) := by
    simp only [envelopeOf, henv, htype, bind, Except.bind]
  obtain ⟨hcodec, hactions⟩ := handleAccepted_reaction d.reprOf r
    { codec with guard := codec.guard.recordNonce r.now₂ (b64Encode draws.nonce) } hmsgId hc.payload
  rw [acked_guard] at hcodec hactions
  constructor
  · simp only [handleText, hdecrypt, Bool.not_true, Bool.false_eq_true, if_false, henvelope, hcodec]
  · simp only [textActions, hdecrypt, Bool.not_true, Bool.false_eq_true, if_false, henvelope, hactions]

end Step

section Loop

variable {c : Call} {codec : CryptoCodec} {gcm : AesGcm} {s : Socket}
  {texts : List Str} {text : Str} {stream : Bytes} {i : Nat} {m : Sent} {ms taken sent : List Sent}

theorem served_cons : served c codec i (m :: ms) =
    if c.running i && acked c.lib.reprOf codec (c.readings i) m then
      reaction manualAckText id m ++ served c codec (i + 1) ms else [] := by
  rw [served, List.zipIdx_cons, List.takeWhile_cons]
  split <;> rfl

theorem recvFrame_wire (hs : Prompt s) (f : ManualServer.Frame) (hstream : s.stream = f.wire ++ stream) :
    ∃ s', recvFrame s = (.frame f.kind.value f.piece.payload, s') ∧ s'.stream = stream ∧ Prompt s' := by
  obtain ⟨s', hread, hs'⟩ := recvFrame_prompt hs
  have hframe := ManualServer.recvFrame_wire f stream
  rw [← hstream] at hframe
  rw [hframe] at hread
  exact ⟨s', hread, hs' _ hframe⟩

theorem loopActions_stopped (fuel : Nat) (h : c.running i = false) : loopActions c fuel i codec s = [] := by
  cases fuel <;> simp [loopActions, h]

theorem loopActions_end (hs : Prompt s) (hstream : Wrote [] s.stream) (fuel : Nat) :
    loopActions c fuel i codec s = [] := by
  cases fuel with
  | zero => rfl
  | succ fuel =>
      rw [loopActions]
      generalize hbytes : s.stream = bytes at hstream
      cases hstream with
      | nothing =>
          obtain ⟨s', hread, -⟩ := recvFrame_prompt hs
          rw [hbytes] at hread
          have hnothing : recvFrame s = (.nothing, s') := hread
          simp only [hnothing, ite_self]
      | close closing rest =>
          obtain ⟨s', hread, -⟩ := recvFrame_wire hs closing.frame hbytes
          have hclose : recvFrame s = (.frame 0x8 closing.piece.payload, s') := hread
          simp only [hclose, if_true, ite_self]

theorem loopActions_text (codec : CryptoCodec) (hs : Prompt s) (hstream : Wrote (text :: texts) s.stream) (fuel : Nat)
    (hrunning : c.running i = true) : ∃ s', Prompt s' ∧ Wrote texts s'.stream ∧ s'.stream.length < s.stream.length ∧
      loopActions c (fuel + 1) i codec s =
        textActions c.lib.reprOf (c.hasMessageCb && c.loop) codec (c.readings i) text ++
          match handleText c.lib.reprOf (c.hasMessageCb && c.loop) codec (c.readings i) text with
          | none => []
          | some codec => loopActions c fuel (i + 1) codec s' := by
  generalize hbytes : s.stream = bytes at hstream
  cases hstream with
  | text piece hpiece hrest =>
      obtain ⟨s', hread, hs', hprompt⟩ := recvFrame_wire hs (textFrame piece) hbytes
      have htext : recvFrame s = (.frame 0x1 piece.payload, s') := hread
      refine ⟨s', hprompt, hs' ▸ hrest, ?_, ?_⟩
      · have hshorter := SocketReader.recvFrame_shorter htext
        rwa [hbytes] at hshorter
      · have hne : (0x1 : UInt8) ≠ 0x8 := by decide
        simp only [loopActions, hrunning, Bool.not_true, Bool.false_eq_true, if_false, htext, hne, decode_encode hpiece]

variable {d : Dispatch.Session}

theorem loopActions_served (hrepr : c.lib.reprOf = d.reprOf) (hcb : (c.hasMessageCb && c.loop) = true)
    (hopens : ∀ guard, Opens gcm (.py { codec with guard })) : ∀ {fuel i : Nat} {guard : ReplayGuard Str} {taken : List Sent}
    {s : Socket}, Line guard taken (taken ++ ms) → (∀ m ∈ ms, Signed gcm codec.verifier m) → InTime c i ms →
      Prompt s → Wrote (ms.map (·.text)) s.stream → s.stream.length < fuel →
      loopActions c fuel i { codec with guard } s = served c codec i ms := by
  induction ms with
  | nil =>
      intro fuel i guard taken s _ _ _ hs hstream _
      exact loopActions_end hs hstream fuel
  | cons m ms ih =>
      intro fuel i guard taken s hline hsigned htime hs hstream hfuel
      obtain ⟨fuel, rfl⟩ : ∃ n, fuel = n + 1 := ⟨fuel - 1, by omega⟩
      rw [served_cons]
      cases hrunning : c.running i with
      | false => rw [loopActions_stopped _ hrunning, Bool.false_and, if_neg Bool.false_ne_true]
      | true =>
          obtain ⟨s', hs', hrest, hshorter, heq⟩ :=
            loopActions_text { codec with guard } hs hstream fuel hrunning
          have honTime : OnTime (c.readings i).now₁ m := htime (m, i) (by rw [List.zipIdx_cons]; exact List.mem_cons_self)
          obtain ⟨env, parts, stamp, draws, hc, hready⟩ := hline.ready rfl (hsigned m List.mem_cons_self) honTime
          obtain ⟨hcodec, hactions⟩ := handleText_ready { codec with guard } hc hready (hopens guard)
          rw [acked_guard] at hcodec hactions
          rw [heq, hcb, hrepr, hcodec, hactions, Bool.true_and]
          cases hacked : acked d.reprOf codec (c.readings i) m with
          | false => rfl
          | true =>
              have hnext : Line (guard.recordNonce (c.readings i).now₂ (b64Encode draws.nonce)) (taken ++ [m])
                  ((taken ++ [m]) ++ ms) := by
                rw [← List.append_cons]
                exact hline.take (stamps_carries hc).1 _
              have htail : InTime c (i + 1) ms := fun q hq =>
                htime q (by rw [List.zipIdx_cons]; exact List.mem_cons_of_mem _ hq)
              have hfuel' : s'.stream.length < fuel := by omega
              exact congrArg _ (ih hnext (fun m' hm => hsigned m' (List.mem_cons_of_mem _ hm)) htail hs' hrest hfuel')

end Loop

structure Serving (c : Call) : Prop where
  upgraded : c.upgraded = true
  loop : c.loop = true
  added : c.added = true
  hasMessageCb : c.hasMessageCb = true

structure Delivers (conn : Socket) (text : Str) (ms : List Sent) : Prop where
  arrives : ∃ request conn', conn.recv 4096 = some (request, conn') ∧ (clientKey request).isSome ∧ Prompt conn' ∧
    Wrote (text :: ms.map (·.text)) conn'.stream

def Named (cfg : Config) : Prop := cfg.agentId ≠ [] ∧ cfg.agentId ≠ bytes (str "<unknown>")

section Flow

variable {lib : Agent.Handshake.Library} {cfg : Config} {a : Attempt} {c : Call} {aes : Aes} {text : Str}
  {agent : Agent.Handshake.Session} {forwarder : Handshake.Session} {ms : List Sent} {conn : Socket} {fuel limit : Nat}

theorem removable_registered (h : Registers cfg forwarder) (hnamed : Named cfg) : Removable forwarder.init.agentId := by
  obtain ⟨id, hid, hencoded⟩ := h.agentId
  rw [hid]
  constructor
  · cases id with
    | nil => exact absurd (Option.some.inj hencoded).symm hnamed.1
    | cons x id => rfl
  · intro hunknown
    cases hunknown
    exact hnamed.2 (by rw [bytes, hencoded, Option.getD_some])

theorem handshake_fits {flib : Handshake.Library} {l : Handshake.Local}
    (h : Established lib flib cfg a l text agent forwarder) (hfits : SameHandshake.KeysFit l) {data : Bytes}
    (hdata : encodeUtf8 text = some data) : ∃ ack, ManualHandshake.handshake flib l data = .done forwarder ack := by
  obtain ⟨ack, reply, hdone, hreply, -, hsame⟩ := h.answered
  obtain ⟨fields, ack', htyped, hshakes⟩ := ManualHandshake.typed_of_doHandshake (congrArg Handshake.Result.outcome hdone)
  have hack : ack = ack' := by
    rw [ManualHandshake.doHandshake_of_typed htyped hshakes] at hdone
    exact (List.singleton_inj.mp (congrArg Handshake.Result.sent hdone)).symm
  obtain ⟨reply', hreply', hshort⟩ := (SameHandshake.keysFit_iff hshakes).mp hfits
  rw [← hack, hreply] at hreply'
  cases hreply'
  exact ⟨ack, hsame data hdata hshort⟩

theorem opened_delivers (h : Established lib c.lib cfg a c.own text agent forwarder)
    (hfits : SameHandshake.KeysFit c.own) (hupgraded : c.upgraded = true) (hconn : Delivers conn text ms) :
    ∃ conn', opened c conn = some (forwarder, conn') ∧ Prompt conn' ∧ Wrote (ms.map (·.text)) conn'.stream ∧
      conn'.stream.length ≤ conn.stream.length := by
  obtain ⟨request, conn₁, hrecv, hkey, hprompt, hwrote⟩ := hconn.arrives
  have hlength := congrArg List.length (SocketReader.Socket.recv_stream hrecv).1
  rw [List.length_append] at hlength
  generalize hbytes : conn₁.stream = bytes at hwrote
  cases hwrote with
  | text piece hpiece hrest =>
      obtain ⟨conn', hread, hs', hprompt'⟩ := recvFrame_wire hprompt (textFrame piece) hbytes
      have hinit : recvFrame conn₁ = (.frame 0x1 piece.payload, conn') := hread
      have hshorter := SocketReader.recvFrame_shorter hinit
      obtain ⟨ack, hdone⟩ := handshake_fits h hfits hpiece
      have hsome : (clientKey request).isNone = false := by rw [Option.isNone_eq_false_iff]; exact hkey
      refine ⟨conn', ?_, hprompt', hs' ▸ hrest, by omega⟩
      simp only [opened, hrecv, hsome, hupgraded, Bool.not_true, Bool.or_self, Bool.false_eq_true, if_false, hinit, hdone]

theorem signed_fromAgent (haes : aes.Lawful) (hbio : Bio lib.ssl limit) (hjoined : Joined agent forwarder)
    (h : FromAgent (sessionOf lib c.lib aes agent forwarder) limit ms) :
    ∀ m ∈ ms, Signed (aes.gcm agent.sharedSecret) forwarder.verifier m := by
  intro m hm
  obtain ⟨r, guard, hwritten, hpayload, hsize, hwire⟩ := h.sent m hm
  obtain ⟨hseals, hopens⟩ := haes.agent { agentCodec aes agent with guard } agent.sharedSecret rfl hjoined.size
  obtain ⟨text, hsend, hgenuine⟩ := genuinely_sent (d := sessionOf lib c.lib aes agent forwarder) r m.type
    ⟨hseals, hopens, hjoined.agentSigns.der⟩ hbio hpayload (hsize.trans_le hbio.atMost) hsize hjoined.agentSigns
  have hsame := hwire.symm.trans (agentWire_of_send hwritten hsend)
  rw [List.singleton_inj.mp (Except.ok.inj hsame)]
  exact hgenuine.signed

theorem served_all {codec : CryptoCodec} {i : Nat}
    (h : ∀ q ∈ ms.zipIdx i, c.running q.2 = true ∧ acked c.lib.reprOf codec (c.readings q.2) q.1 = true) :
    served c codec i ms = ms.flatMap (reaction manualAckText id) := by
  have hwhole : (ms.zipIdx i).takeWhile (fun q => c.running q.2 && acked c.lib.reprOf codec (c.readings q.2) q.1) =
      ms.zipIdx i := List.takeWhile_eq_self_iff.mpr fun q hq => by simp [h q hq]
  have hfst : (ms.zipIdx i).map Prod.fst = ms := List.zipIdx_map_fst i ms
  rw [served, hwhole, ← List.flatMap_map, hfst]

structure Serves (c : Call) (fuel : Nat) (conn : Socket) (forwarder : Handshake.Session) (ms : List Sent) : Prop where
  outcome : handleClient c fuel conn = some ⟨false, true, registering c forwarder ++ removing c forwarder.init.agentId⟩
  actions : clientActions c fuel conn = served c (codecOf c forwarder) 0 ms
  whole : (∀ q ∈ ms.zipIdx, c.running q.2 = true ∧
      acked c.lib.reprOf (codecOf c forwarder) (c.readings q.2) q.1 = true) →
    clientActions c fuel conn = ms.flatMap (reaction manualAckText id)

theorem client_serves (haes : aes.Lawful) (hbio : Bio lib.ssl limit) (hcipher : c.cipher = aes.forwarder) (hc : Serving c)
    (hfits : SameHandshake.KeysFit c.own) (hnamed : Named cfg)
    (h : Established lib c.lib cfg a c.own text agent forwarder)
    (hms : FromAgent (sessionOf lib c.lib aes agent forwarder) limit ms) (htime : InTime c 0 ms) (hconn : Delivers conn text ms)
    (hfuel : conn.stream.length < fuel) : Serves c fuel conn forwarder ms := by
  obtain ⟨conn', hopened, hprompt, hwrote, hle⟩ := opened_delivers h hfits hc.upgraded hconn
  have hactions : clientActions c fuel conn = served c (codecOf c forwarder) 0 ms := by
    have hkey : (codecOf c forwarder).cipher = aes.forwarder agent.sharedSecret := by
      rw [codecOf, hcipher, h.joined.secret]
    have hopens (guard : ReplayGuard Str) : Opens (aes.gcm agent.sharedSecret) (.py { codecOf c forwarder with guard }) :=
      (haes.forwarder _ _ hkey h.joined.size).2
    have hline : Line (.fresh 300) [] ([] ++ ms) := { line_fresh with distinct := hms.distinct }
    simp only [clientActions, hopened, hc.added, Bool.not_true, Bool.and_false, Bool.false_eq_true, if_false]
    exact loopActions_served (d := sessionOf lib c.lib aes agent forwarder) rfl (by rw [hc.hasMessageCb, hc.loop]; rfl)
      hopens hline (signed_fromAgent haes hbio h.joined hms) htime hprompt hwrote (hle.trans_lt hfuel)
  refine ⟨?_, hactions, fun hall => hactions.trans (served_all hall)⟩
  rw [handleClient, tryBody_opened hopened, serve_eq (hle.trans_lt hfuel), Option.map_some,
    cleanup_removing hc.loop (removable_registered h.registers hnamed)]

theorem session_served (p : Pair lib c.lib a c.own) (haes : aes.Lawful) (hbio : Bio lib.ssl limit) (hjson : ReadsFlat lib.nl)
    (hsends : c.own.sends = true) (hfits : SameHandshake.KeysFit c.own) (hcipher : c.cipher = aes.forwarder)
    (hc : Serving c) (hnamed : Named cfg) {ecdh : Agent.Handshake.EcdhKeyExchange}
    (hsend : sendInit lib cfg a = .ok (ecdh, text)) : ∃ agent forwarder,
      Established lib c.lib cfg a c.own text agent forwarder ∧
      ∀ ms conn fuel, FromAgent (sessionOf lib c.lib aes agent forwarder) limit ms → InTime c 0 ms → Delivers conn text ms →
        conn.stream.length < fuel → Serves c fuel conn forwarder ms := by
  obtain ⟨agent, forwarder, h⟩ := established_of_pair p hbio hjson hsends hsend
  exact ⟨agent, forwarder, h, fun ms conn fuel hms htime hconn hfuel =>
    client_serves haes hbio hcipher hc hfits hnamed h hms htime hconn hfuel⟩

end Flow

section Sample

open Agent.Handshake (sampleConfig sampleAttempt)

def servingCall : Call :=
  { sampleCall with
    lib := sampleForwarder
    own := sampleLocal
    cipher := sampleAes.forwarder
    readings := fun _ => ⟨1700000000000, 1700000000000, Sending.sampleReadings⟩ }

theorem sample_agentKey : Agent.Transit.Keyed Agent.Transit.sampleGcm (.cpp sampleTraffic.agentCodec) :=
  have hkey := sample_lawful.agent sampleTraffic.agentCodec (List.replicate 32 0) rfl List.length_replicate
  ⟨hkey.1, hkey.2, (keysOf 3).der⟩

def sentBy (r : Dispatch.Readings) (type : MessageType) (payload : Str) : Sent :=
  match sampleTraffic.agentWire sampleTraffic.agentCodec r type payload with
  | .ok [m] => m
  | _ => r.sent type payload []

theorem agentWire_sentBy {r : Dispatch.Readings} (type : MessageType) {payload : Str} (hwritten : r.written = true)
    (hpayload : Scalar payload) (hsize : (bytes payload).length < 2147483648) :
    sampleTraffic.agentWire sampleTraffic.agentCodec r type payload = .ok [sentBy r type payload] ∧
      (sentBy r type payload).type = type ∧ (sentBy r type payload).payload = payload := by
  obtain ⟨m, hwire, htype, hsame, -⟩ := agentWire_eq (d := sampleTraffic) type sample_agentKey Agent.Transit.sample_bio
    hpayload hsize hwritten
  have hsent : sentBy r type payload = m := by rw [sentBy, hwire]
  exact ⟨hsent.symm ▸ hwire, hsent.symm ▸ htype, hsent.symm ▸ hsame⟩

def report : List Sent :=
  [sentBy (readingsOf 1) .heartbeat [], sentBy (readingsOf 2) .buildResult (str "done"),
    sentBy (readingsOf 3) .buildTrigger (str "again"), sentBy (readingsOf 4) .heartbeat []]

theorem report_read : (report.filterMap nonceOf).Nodup ∧ (∀ m ∈ report, timestampOf m = some 1700000000000) ∧
    (∀ q ∈ report.zipIdx, servingCall.running q.2 = true ∧
      acked sampleForwarder.reprOf sampleTraffic.forwarderCodec (servingCall.readings q.2) q.1 = true) ∧
    (∀ text ∈ report.map (·.text), (encodeUtf8 text).any (fun data => decide (data.length < 2 ^ 63)) = true) ∧
    (sendInit sampleAgent sampleConfig (sampleAttempt [])).toOption.any (fun s =>
      (encodeUtf8 s.2).any fun data => decide (data.length < 2 ^ 63)) = true ∧ SameHandshake.KeysFit sampleLocal := by
  decide +kernel

theorem report_sent : FromAgent sampleTraffic 2147483648 report where
  sent := by
    have hsent (nonce : UInt8) (type : MessageType) {payload : Str} (hpayload : Scalar payload)
        (hsize : (bytes payload).length < 2147483648) : ∃ r guard, r.written = true ∧
          Scalar (sentBy (readingsOf nonce) type payload).payload ∧
          (bytes (sentBy (readingsOf nonce) type payload).payload).length < 2147483648 ∧
          sampleTraffic.agentWire { sampleTraffic.agentCodec with guard } r (sentBy (readingsOf nonce) type payload).type
            (sentBy (readingsOf nonce) type payload).payload = .ok [sentBy (readingsOf nonce) type payload] := by
      obtain ⟨hwire, htype, hsame⟩ := agentWire_sentBy (r := readingsOf nonce) type rfl hpayload hsize
      rw [htype, hsame]
      exact ⟨readingsOf nonce, sampleTraffic.agentCodec.guard, rfl, hpayload, hsize, hwire⟩
    simp only [report, List.forall_mem_cons]
    exact ⟨hsent 1 _ (scalar_str "") (by decide), hsent 2 _ (scalar_str _) (by decide),
      hsent 3 _ (scalar_str _) (by decide), hsent 4 _ (scalar_str "") (by decide),
      fun _ hmem => absurd hmem List.not_mem_nil⟩
  distinct := report_read.1

theorem exists_piece {text : Str} (h : (encodeUtf8 text).any (fun data => decide (data.length < 2 ^ 63)) = true) :
    ∃ piece : Piece, encodeUtf8 text = some piece.payload := by
  obtain ⟨data, hdata, hfits⟩ := (Option.any_eq_true _ _).mp h
  exact ⟨⟨RawRecv.zeroKey, data, of_decide_eq_true hfits⟩, hdata⟩

theorem delivers_clientSocket {text : Str} {ms : List Sent} {stream : Bytes} (h : Wrote (text :: ms.map (·.text)) stream) :
    Delivers (clientSocket upgradeRequest stream (by decide)) text ms := by
  have hne : upgradeRequest ++ stream ≠ [] :=
    List.append_ne_nil_of_left_ne_nil (List.ne_nil_of_length_pos (by decide)) _
  have hrecv : (clientSocket upgradeRequest stream (by decide)).recv 4096 =
      some (upgradeRequest, (clientSocket upgradeRequest stream (by decide)).after upgradeRequest.length) := by
    have hsize : upgradeRequest.length ≤ 4096 := by decide
    simp only [Socket.recv, clientSocket, if_neg hne, if_true, Nat.min_eq_right hsize, List.take_left]
  refine ⟨upgradeRequest, _, hrecv, by rw [genuine_key]; rfl, ⟨rfl, fun i => by simp [clientSocket]⟩, ?_⟩
  have hstream : ((clientSocket upgradeRequest stream (by decide)).after upgradeRequest.length).stream = stream := by
    simp [clientSocket]
  rwa [hstream]

theorem exists_wrote : ∀ {texts : List Str},
    (∀ text ∈ texts, (encodeUtf8 text).any (fun data => decide (data.length < 2 ^ 63)) = true) →
      ∃ stream, Wrote texts stream := by
  intro texts
  induction texts with
  | nil => exact fun _ => ⟨[], .nothing⟩
  | cons text texts ih =>
      intro h
      obtain ⟨htext, htexts⟩ := List.forall_mem_cons.mp h
      obtain ⟨piece, hpiece⟩ := exists_piece htext
      obtain ⟨stream, hstream⟩ := ih htexts
      exact ⟨_, .text piece hpiece hstream⟩

theorem session_served_report : ∃ conn fuel forwarder, Serves servingCall fuel conn forwarder report ∧
    clientActions servingCall fuel conn = report.flatMap (reaction manualAckText id) := by
  obtain ⟨⟨ecdh, text⟩, hsend⟩ := sample_sends
  obtain ⟨-, hstamps, hacked, htexts, hsent, hfits⟩ := report_read
  obtain ⟨agent, forwarder, hestablished, hserves⟩ := session_served (c := servingCall) samplePair sample_lawful
    Agent.Transit.sample_bio Agent.Transit.sample_readsFlat rfl hfits rfl ⟨rfl, rfl, rfl, rfl⟩
    ⟨by decide, by decide⟩ hsend
  have hsession := session_established hestablished
  have htext : (encodeUtf8 text).any (fun data => decide (data.length < 2 ^ 63)) = true := by rwa [hsend] at hsent
  obtain ⟨stream, hstream⟩ := exists_wrote (List.forall_mem_cons.mpr ⟨htext, htexts⟩)
  have htime : InTime servingCall 0 report := fun q hq timestamp hmem => by
    rw [hstamps q.1 (List.fst_mem_of_mem_zipIdx hq)] at hmem
    cases hmem
    exact (by decide : (1700000000000 : Int) - 300000 ≤ 1700000000000 ∧ (1700000000000 : Int) ≤ 1700000000000 + 300000)
  have hserved := hserves _ _ _ (hsession ▸ report_sent) htime (delivers_clientSocket hstream) (Nat.lt_add_one _)
  have hcodec : codecOf servingCall forwarder = sampleTraffic.forwarderCodec := congrArg (·.forwarderCodec) hsession
  exact ⟨_, _, forwarder, hserved, hserved.whole (hcodec ▸ hacked)⟩

end Sample

end Ws.ManualSession
