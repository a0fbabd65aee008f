import JdRelay.Base.ReadLoop
import JdRelay.Ws.ManualSession

namespace Ws.SameLoop
open Text Json Crypto IoLoop ReadLoop
open Agent.Transit (msgType)
open ManualServer (Readings messageCb sendAck handleAccepted envelopeOf handleText)
open ManualClient (Call Prompt)
open ManualSession (Wrote callbackActions ackActions acceptedActions textActions loopActions)
open SocketReader (Socket)

section Passes

variable (reprOf : Value → Str) (hasMessageCb : Bool)

def goesOut (codec : CryptoCodec) (r : Readings) : Action Str → Bool
  | .ack payload => (forwarderPut reprOf codec r.send .ack payload).returned
  | .dispatch _ _ => true

-- In handle_agent_connection an ACK that does not go out is only logged.
def handlerPass : Pass CryptoCodec (Str × Readings) (Action Str) := fun codec m =>
  match forwarderTake reprOf hasMessageCb codec m.2.now₁ m.2.now₂ m.1 with
  | .error _ => (none, [])
  | .ok (codec, actions) => (some codec, actions.filter (goesOut reprOf codec m.2))

def manualPass : Pass CryptoCodec (Str × Readings) (Action Str) := fun codec m =>
  (handleText reprOf hasMessageCb codec m.2 m.1, textActions reprOf hasMessageCb codec m.2 m.1)

inductive SameAction : Action Str → Action Str → Prop where
  | ack {payload payload' : Str} (h : loads payload = loads payload') : SameAction (.ack payload) (.ack payload')
  | dispatch (type : MessageType) (plaintext : Str) : SameAction (.dispatch type plaintext) (.dispatch type plaintext)

structure Accepted where
  codec : CryptoCodec
  env : CryptoEnvelope
  type : MessageType
  plaintext : Bytes

def accepted (codec : CryptoCodec) (m : Str × Readings) : Option Accepted :=
  match codec.decrypt reprOf m.2.now₁ m.2.now₂ m.1, envelopeOf m.1 with
  | (.ok result, codec), .ok (env, type) => if result.ok then some ⟨codec, env, type, result.plaintext⟩ else none
  | _, _ => none

def ackTexts (a : Accepted) : Option (Str × Str) :=
  match a.type with
  | .heartbeat => some (heartbeatAck, Agent.WsClient.heartbeatAck)
  | .buildTrigger => some (triggerAck a.env.msgId, triggerAck a.env.msgId)
  | _ => none

@[mk_iff]
structure Handled (r : Readings) (a : Accepted) : Prop where
  acked : ∀ t ∈ ackTexts a, goesOut reprOf a.codec r (.ack t.1) = true ∧ (sendAck reprOf a.codec r t.2).isSome
  readable : hasMessageCb = true → a.type ≠ .heartbeat → a.type ≠ .ack → (decodeUtf8 a.plaintext).isSome

instance (r : Readings) (a : Accepted) : Decidable (Handled reprOf hasMessageCb r a) :=
  decidable_of_iff' _ (handled_iff reprOf hasMessageCb r a)

def Smooth (codec : CryptoCodec) (m : Str × Readings) : Prop :=
  ∀ a ∈ accepted reprOf codec m, Handled reprOf hasMessageCb m.2 a

instance (codec : CryptoCodec) (m : Str × Readings) : Decidable (Smooth reprOf hasMessageCb codec m) :=
  inferInstanceAs (Decidable (∀ a ∈ accepted reprOf codec m, Handled reprOf hasMessageCb m.2 a))

end Passes

section Pass

variable {reprOf : Value → Str} {hasMessageCb : Bool} {codec : CryptoCodec} {m : Str × Readings} {r : Readings}

theorem forall_sameAction (actions : List (Action Str)) : List.Forall₂ SameAction actions actions :=
  List.forall₂_same.mpr fun action _ => by
    cases action with
    | ack payload => exact .ack rfl
    | dispatch type plaintext => exact .dispatch type plaintext

theorem heartbeat_same : SameAction (.ack heartbeatAck) (.ack Agent.WsClient.heartbeatAck) := .ack (by decide +kernel)

theorem msgType_error {v : Value} {e : Python.Error} (h : msgType v = .error e) : e = .valueError := by
  unfold msgType at h
  split at h
  · unfold MessageType.parse at h
    split at h
    · cases h
    · exact (Except.error.inj h).symm
  · exact (Except.error.inj h).symm

theorem fromJson_of_decrypt {now₁ now₂ : Int} {text : Str} {result : DecryptResult} {codec' : CryptoCodec}
    (h : codec.decrypt reprOf now₁ now₂ text = (.ok result, codec')) (hok : result.ok = true) :
    ∃ env, CryptoEnvelope.fromJson text = .ok env := by
  have haccepts : Agent.Interop.PyAccepts reprOf codec now₁ now₂ text result.plaintext := ⟨result, by rw [h], hok, rfl⟩
  obtain ⟨env, hvalidate⟩ := Agent.Interop.pyAccepts_iff_validate.mp haccepts
  exact ⟨env, (Agent.Interop.validate_ok_iff.mp hvalidate).1⟩

inductive Passes (reprOf : Value → Str) (hasMessageCb : Bool) (codec : CryptoCodec) (m : Str × Readings) : Prop where
  | alike (h : accepted reprOf codec m = none)
      (hsame : handlerPass reprOf hasMessageCb codec m = manualPass reprOf hasMessageCb codec m)
  | accepted (a : Accepted) (h : accepted reprOf codec m = some a)
      (hhandler : handlerPass reprOf hasMessageCb codec m =
        (some a.codec, (forwarderActions hasMessageCb a.env.msgId a.plaintext a.type).filter (goesOut reprOf a.codec m.2)))
      (hmanual : manualPass reprOf hasMessageCb codec m =
        (handleAccepted reprOf hasMessageCb a.codec m.2 a.env a.type a.plaintext,
          acceptedActions reprOf hasMessageCb a.codec m.2 a.env a.type a.plaintext))

theorem passes (reprOf : Value → Str) (hasMessageCb : Bool) (codec : CryptoCodec) (m : Str × Readings) :
    Passes reprOf hasMessageCb codec m := by
  obtain ⟨text, r⟩ := m
  cases hdecrypt : codec.decrypt reprOf r.now₁ r.now₂ text with
  | mk out codec' =>
      cases out with
      | error e =>
          refine .alike (by simp [accepted, hdecrypt]) ?_
          simp only [handlerPass, manualPass, forwarderTake, handleText, textActions, hdecrypt, bind, Except.bind]
      | ok result =>
          cases hok : result.ok with
          | false =>
              refine .alike (by cases henvelope : envelopeOf text <;> simp [accepted, hdecrypt, hok, henvelope]) ?_
              simp only [handlerPass, manualPass, forwarderTake, handleText, textActions, hdecrypt, bind, Except.bind, hok,
                Bool.not_false, if_true, List.filter_nil]
          | true =>
              obtain ⟨env, henv⟩ := fromJson_of_decrypt hdecrypt hok
              cases htype : msgType env.type with
              | error e =>
                  obtain rfl := msgType_error htype
                  have henvelope : envelopeOf text = .error .valueError := by
                    simp only [envelopeOf, henv, htype, bind, Except.bind]
                  refine .alike (by simp [accepted, hdecrypt, henvelope]) ?_
                  simp only [handlerPass, manualPass, forwarderTake, handleText, textActions, hdecrypt, bind, Except.bind,
                    hok, Bool.not_true, Bool.false_eq_true, if_false, henv, htype, henvelope, List.filter_nil]
              | ok type =>
                  have henvelope : envelopeOf text = .ok (env, type) := by
                    simp only [envelopeOf, henv, htype, bind, Except.bind]
                  refine .accepted ⟨codec', env, type, result.plaintext⟩ (by simp [accepted, hdecrypt, henvelope, hok]) ?_ ?_
                  · simp only [handlerPass, forwarderTake, hdecrypt, bind, Except.bind, hok, Bool.not_true,
                      Bool.false_eq_true, if_false, henv, htype]
                  · simp only [manualPass, handleText, textActions, hdecrypt, hok, Bool.not_true, Bool.false_eq_true,
                      if_false, henvelope]

end Pass

section Accepted

variable {reprOf : Value → Str} {hasMessageCb : Bool} {r : Readings} {a : Accepted} {codec : CryptoCodec}

theorem filter_callback (hasMessageCb : Bool) (type : MessageType) (plaintext : Bytes) :
    (callbackActions hasMessageCb type plaintext).filter (goesOut reprOf codec r) =
      callbackActions hasMessageCb type plaintext := by
  refine List.filter_eq_self.mpr fun action haction => ?_
  unfold callbackActions at haction
  split at haction
  · obtain ⟨payload, -, rfl⟩ := List.mem_map.mp haction
    rfl
  · cases haction

theorem messageCb_some {plaintext : Bytes} : some codec = messageCb hasMessageCb codec plaintext ↔
    (hasMessageCb = true → (decodeUtf8 plaintext).isSome) := by
  cases hasMessageCb <;> cases hdecode : decodeUtf8 plaintext <;> simp [messageCb, hdecode]

theorem trigger_alike (reprOf : Value → Str) (codec : CryptoCodec) (r : Readings) (payload : Str)
    {actions : List (Action Str)} (hactions : actions.filter (goesOut reprOf codec r) = actions) :
    List.Forall₂ SameAction (([Action.ack payload] ++ actions).filter (goesOut reprOf codec r))
      (Action.ack payload :: actions) ↔ goesOut reprOf codec r (.ack payload) = true := by
  rw [List.filter_append, hactions]
  cases hgoes : goesOut reprOf codec r (.ack payload) with
  | true =>
      have hfilter : [Action.ack payload].filter (goesOut reprOf codec r) = [.ack payload] := by simp [hgoes]
      rw [hfilter]
      exact iff_of_true (forall_sameAction _) rfl
  | false =>
      refine iff_of_false (fun h => ?_) Bool.false_ne_true
      have hlength := h.length_eq
      simp [hgoes] at hlength

theorem forwarderActions_callback (msgId : Value) (plaintext : Bytes) (type : MessageType) :
    forwarderActions hasMessageCb msgId plaintext type =
      if type = .ack then []
      else if type = .heartbeat then [.ack heartbeatAck]
      else (if type = .buildTrigger then [.ack (triggerAck msgId)] else []) ++
        callbackActions hasMessageCb type plaintext := rfl

theorem accepted_alike : (List.Forall₂ SameAction
      ((forwarderActions hasMessageCb a.env.msgId a.plaintext a.type).filter (goesOut reprOf a.codec r))
      (acceptedActions reprOf hasMessageCb a.codec r a.env a.type a.plaintext) ∧
    some a.codec = handleAccepted reprOf hasMessageCb a.codec r a.env a.type a.plaintext) ↔
      Handled reprOf hasMessageCb r a := by
  obtain ⟨codec, env, type, plaintext⟩ := a
  rw [handled_iff]
  simp only [forwarderActions_callback, acceptedActions, handleAccepted, ackTexts]
  cases type with
  | heartbeat =>
      simp only [ackActions, reduceCtorEq, if_false, if_true]
      cases hsent : sendAck reprOf codec r Agent.WsClient.heartbeatAck with
      | none => simp [hsent]
      | some codec' =>
          obtain rfl := ManualSession.sendAck_some hsent
          cases hgoes : goesOut reprOf codec' r (.ack heartbeatAck) <;> simp [hsent, hgoes, heartbeat_same]
  | buildTrigger =>
      simp only [reduceCtorEq, if_false, if_true]
      cases hsent : sendAck reprOf codec r (triggerAck env.msgId) with
      | none => simp [hsent]
      | some codec' =>
          obtain rfl := ManualSession.sendAck_some hsent
          have htrigger := trigger_alike reprOf codec' r (triggerAck env.msgId)
            (filter_callback hasMessageCb .buildTrigger plaintext)
          rw [htrigger, Option.bind_some, messageCb_some]
          simp [hsent]
  | ack => simp
  | _ =>
      simp only [reduceCtorEq, if_false, List.nil_append, filter_callback, messageCb_some, forall_sameAction, true_and]
      simp

theorem handleAccepted_some {codec codec' : CryptoCodec} {env : CryptoEnvelope} {type : MessageType} {plaintext : Bytes}
    (h : handleAccepted reprOf hasMessageCb codec r env type plaintext = some codec') : codec' = codec := by
  have hcallback {codec codec' : CryptoCodec} (h : messageCb hasMessageCb codec plaintext = some codec') : codec' = codec := by
    unfold messageCb at h
    split at h
    · cases h
    · exact (Option.some.inj h).symm
  unfold handleAccepted at h
  split at h
  · exact ManualSession.sendAck_some h
  split at h
  · exact (Option.some.inj h).symm
  split at h
  · obtain ⟨codec₁, hsent, hrest⟩ := Option.bind_eq_some_iff.mp h
    obtain rfl := ManualSession.sendAck_some hsent
    exact hcallback hrest
  · exact hcallback h

end Accepted

section Run

variable {reprOf : Value → Str} {hasMessageCb : Bool} {codec : CryptoCodec} {m : Str × Readings}

theorem pass_alike_iff : PassAlike SameAction (handlerPass reprOf hasMessageCb) (manualPass reprOf hasMessageCb) codec m ↔
    Smooth reprOf hasMessageCb codec m := by
  rw [PassAlike, Smooth]
  cases passes reprOf hasMessageCb codec m with
  | alike h hsame =>
      rw [hsame, h]
      exact iff_of_true ⟨forall_sameAction _, rfl⟩ (by simp)
  | accepted a h hhandler hmanual =>
      rw [hhandler, hmanual, h, accepted_alike]
      simp

theorem inStep : InStep (handlerPass reprOf hasMessageCb) (manualPass reprOf hasMessageCb) := by
  intro codec m c₁ c₂ h₁ h₂
  cases passes reprOf hasMessageCb codec m with
  | alike h hsame =>
      rw [hsame, h₂] at h₁
      exact (Option.some.inj h₁).symm
  | accepted a h hhandler hmanual =>
      rw [hhandler] at h₁
      rw [hmanual] at h₂
      rw [handleAccepted_some h₂, ← Option.some.inj h₁]

theorem loops_alike_iff (codec : CryptoCodec) (ms : List (Str × Readings)) :
    Alike SameAction (run (handlerPass reprOf hasMessageCb) codec ms) (run (manualPass reprOf hasMessageCb) codec ms) ↔
      Along (handlerPass reprOf hasMessageCb) (Smooth reprOf hasMessageCb) codec ms :=
  (run_alike_iff inStep).trans (along_congr (fun _ _ => pass_alike_iff) codec ms)

end Run

section Socket

variable {c : Call} {texts : List Str} {s : Socket} {codec : CryptoCodec} {fuel : Nat}

def passesOf (c : Call) (i : Nat) (texts : List Str) : List (Str × Readings) :=
  (texts.zipIdx i).map fun q => (q.1, c.readings q.2)

theorem loopActions_run (hrunning : ∀ i, c.running i = true) : ∀ {fuel i : Nat} {codec : CryptoCodec} {s : Socket},
    Prompt s → Wrote texts s.stream → s.stream.length < fuel → loopActions c fuel i codec s =
      (run (manualPass c.lib.reprOf (c.hasMessageCb && c.loop)) codec (passesOf c i texts)).1.flatten := by
  induction texts with
  | nil =>
      intro fuel i codec s hs hwrote _
      exact ManualSession.loopActions_end hs hwrote fuel
  | cons text texts ih =>
      intro fuel i codec s hs hwrote hfuel
      obtain ⟨fuel, rfl⟩ : ∃ n, fuel = n + 1 := ⟨fuel - 1, by omega⟩
      obtain ⟨s', hs', hrest, hshorter, heq⟩ := ManualSession.loopActions_text codec hs hwrote fuel (hrunning i)
      have hpasses : passesOf c i (text :: texts) = (text, c.readings i) :: passesOf c (i + 1) texts := rfl
      rw [heq, hpasses]
      cases hhandled : handleText c.lib.reprOf (c.hasMessageCb && c.loop) codec (c.readings i) text with
      | none =>
          rw [run_left hhandled]
          simp [manualPass]
      | some codec' =>
          have hlater : s'.stream.length < fuel := by omega
          rw [run_on hhandled, List.flatten_cons, ← ih hs' hrest hlater]
          rfl

theorem servers_alike_iff (hrunning : ∀ i, c.running i = true) (codec : CryptoCodec) (hs : Prompt s)
    (hwrote : Wrote texts s.stream) (hfuel : s.stream.length < fuel) :
    loopActions c fuel 0 codec s =
        (run (manualPass c.lib.reprOf (c.hasMessageCb && c.loop)) codec (passesOf c 0 texts)).1.flatten ∧
      (Alike SameAction (run (handlerPass c.lib.reprOf (c.hasMessageCb && c.loop)) codec (passesOf c 0 texts))
          (run (manualPass c.lib.reprOf (c.hasMessageCb && c.loop)) codec (passesOf c 0 texts)) ↔
        Along (handlerPass c.lib.reprOf (c.hasMessageCb && c.loop)) (Smooth c.lib.reprOf (c.hasMessageCb && c.loop)) codec
          (passesOf c 0 texts)) :=
  ⟨loopActions_run hrunning hs hwrote hfuel, loops_alike_iff codec _⟩

end Socket

section Sample

open ManualSession (servingCall report)
open Traffic (sampleTraffic)

def streamSocket (stream : Bytes) : Socket where
  stream := stream
  ready _ := 16384
  ready_pos _ := Nat.succ_pos _
  closed := true

theorem servers_alike_iff_report : ∃ s fuel, Wrote (report.map (·.text)) s.stream ∧
    loopActions servingCall fuel 0 sampleTraffic.forwarderCodec s =
      report.flatMap (Dispatch.reaction ManualSession.manualAckText id) ∧
    Alike SameAction
      (run (handlerPass (fun _ => []) true) sampleTraffic.forwarderCodec (passesOf servingCall 0 (report.map (·.text))))
      (run (manualPass (fun _ => []) true) sampleTraffic.forwarderCodec (passesOf servingCall 0 (report.map (·.text)))) := by
  have htexts : ∀ text ∈ report.map (·.text), (encodeUtf8 text).any (fun data => decide (data.length < 2 ^ 63)) = true := by
    decide +kernel
  obtain ⟨stream, hstream⟩ := ManualSession.exists_wrote htexts
  obtain ⟨hactions, halike⟩ := servers_alike_iff (c := servingCall) (s := streamSocket stream) (fun _ => rfl)
    sampleTraffic.forwarderCodec ⟨rfl, fun _ => le_rfl⟩ hstream (Nat.lt_add_one _)
  refine ⟨streamSocket stream, _, hstream, hactions.trans (by decide +kernel), halike.mpr (by decide +kernel)⟩

end Sample

end Ws.SameLoop
