import JdRelay.Ws.Establish

namespace Ws.Traffic
open Text Json Crypto Runs IoLoop Dispatch Establish
open Agent (bytes)
open Agent.Handshake (Config Attempt sendInit)
open Agent.Interop (Sealed embed)
open Agent.Transit (AesGcm Seals Opens Keyed Signs Held Bio ReadsFlat Int64 Written Genuine)

structure Aes where
  gcm : Bytes → AesGcm
  agent : Bytes → Agent.AesGcmCipher
  forwarder : Bytes → AesGcmCipher

structure Aes.Lawful (aes : Aes) : Prop where
  agent : ∀ c : Agent.CryptoCodec, ∀ key, c.cipher = aes.agent key → key.length = 32 →
    Seals (aes.gcm key) (.cpp c) ∧ Opens (aes.gcm key) (.cpp c)
  forwarder : ∀ c : CryptoCodec, ∀ key, c.cipher = aes.forwarder key → key.length = 32 →
    Seals (aes.gcm key) (.py c) ∧ Opens (aes.gcm key) (.py c)

def agentCodec (aes : Aes) (session : Agent.Handshake.Session) : Agent.CryptoCodec where
  cipher := aes.agent session.sharedSecret
  signer := ⟨some session.signer, none⟩
  verifier := session.verifier
  guard := .fresh 300

def forwarderCodec (aes : Aes) (session : Handshake.Session) : CryptoCodec where
  cipher := aes.forwarder session.sharedSecret
  signer := ⟨some session.signer, none⟩
  verifier := session.verifier
  guard := .fresh 300

def sessionOf (lib : Agent.Handshake.Library) (flib : Handshake.Library) (aes : Aes) (agent : Agent.Handshake.Session)
    (forwarder : Handshake.Session) : Session where
  reprOf := flib.reprOf
  client := ⟨lib.nl, lib.ssl, true⟩
  hasMessageCb := true
  agentCodec := agentCodec aes agent
  forwarderCodec := forwarderCodec aes forwarder

section Stamps

def fieldOf (m : Sent) (key : String) : Option Value :=
  match loads m.text with
  | some (.obj fields) => lookup? fields (str key)
  | _ => none

def nonceOf (m : Sent) : Option Str :=
  match fieldOf m "nonce" with
  | some (.str nonce) => some nonce
  | _ => none

def timestampOf (m : Sent) : Option Int :=
  match fieldOf m "timestamp" with
  | some (.int timestamp) => some timestamp
  | _ => none

def Fresh (sent : List Sent) (r : Readings) : Prop := b64Encode r.draws.nonce ∉ sent.filterMap nonceOf

def OnTime (now : Int) (m : Sent) : Prop := ∀ timestamp ∈ timestampOf m, now - 300000 ≤ timestamp ∧ timestamp ≤ now + 300000

-- Neither side originates an ACK, payloads are text, sends succeed, nonces do not repeat and nothing is late.
def Honest (limit : Nat) (s : State) : Event → Prop
  | .agentSends r type payload =>
      type ≠ .ack ∧ Scalar payload ∧ (bytes payload).length < limit ∧ r.written = true ∧ Fresh s.agent.sent r
  | .agentTakes now₁ _ => ∀ m ∈ s.toAgent.head?, OnTime now₁ m
  | .agentActs r => r.written = true ∧ Fresh s.agent.sent r
  | .forwarderSends r type payload =>
      type ≠ .ack ∧ Scalar payload ∧ (bytes payload).length ≤ 1585834077 ∧ r.written = true ∧ Fresh s.forwarder.sent r
  | .forwarderTakes now₁ _ => ∀ m ∈ s.toForwarder.head?, OnTime now₁ m
  | .forwarderActs r => r.written = true ∧ Fresh s.forwarder.sent r

instance (limit : Nat) (s : State) : (e : Event) → Decidable (Honest limit s e)
  | .agentSends r type payload => inferInstanceAs
      (Decidable (type ≠ .ack ∧ Scalar payload ∧ _ < limit ∧ r.written = true ∧ b64Encode r.draws.nonce ∉ _))
  | .agentTakes now₁ _ => inferInstanceAs (Decidable (∀ m ∈ s.toAgent.head?, ∀ timestamp ∈ timestampOf m,
      now₁ - 300000 ≤ timestamp ∧ timestamp ≤ now₁ + 300000))
  | .agentActs r => inferInstanceAs (Decidable (r.written = true ∧ b64Encode r.draws.nonce ∉ _))
  | .forwarderSends r type payload => inferInstanceAs
      (Decidable (type ≠ .ack ∧ Scalar payload ∧ _ ≤ 1585834077 ∧ r.written = true ∧ b64Encode r.draws.nonce ∉ _))
  | .forwarderTakes now₁ _ => inferInstanceAs (Decidable (∀ m ∈ s.toForwarder.head?, ∀ timestamp ∈ timestampOf m,
      now₁ - 300000 ≤ timestamp ∧ timestamp ≤ now₁ + 300000))
  | .forwarderActs r => inferInstanceAs (Decidable (r.written = true ∧ b64Encode r.draws.nonce ∉ _))

end Stamps

section Signed

def Signed (gcm : AesGcm) (verifier : EcdsaSigner) (m : Sent) : Prop :=
  ∃ env parts now draws, Carries gcm m env parts now draws ∧ verifier.verify parts.payload parts.signature = true

variable {d : Session} {gcm : AesGcm} {limit : Nat} {r : Readings} {type : MessageType} {payload : Str} {m : Sent}
  {verifier : EcdsaSigner} {now₁ now₂ : Int}

theorem stamps_carries {env : Agent.CryptoEnvelope} {parts : Sealed} {now : Int} {draws : Draws}
    (hc : Carries gcm m env parts now draws) :
    nonceOf m = some (b64Encode draws.nonce) ∧ timestampOf m = some now := by
  obtain ⟨fields, hwritten, htext⟩ := hc.written
  obtain ⟨hne, hkeys, hwire⟩ := hc.genuine.wire hc.int64 hwritten
  have hloads := (Agent.Transit.wire_text hne hkeys hwire).1
  rw [nonceOf, timestampOf, fieldOf, fieldOf, htext, hloads]
  simp only [hwritten.reads.nonce, hwritten.reads.timestamp, hc.genuine.nonce, hc.genuine.timestamp, and_self]

structure Genuinely (gcm : AesGcm) (verifier : EcdsaSigner) (r : Readings) (type : MessageType) (payload : Str) (m : Sent) :
    Prop where
  signed : Signed gcm verifier m
  nonce : nonceOf m = some (b64Encode r.draws.nonce)
  type : m.type = type
  payload : m.payload = payload

theorem genuinely_sent (r : Readings) (type : MessageType) {sender : Agent.Transit.Party} (hkey : Keyed gcm sender)
    (hbio : Bio d.client.ssl limit) (hpayload : Scalar payload) (hshort : (bytes payload).length < 2147483648)
    (hheld : Held limit sender (bytes payload)) (hsigns : Signs sender.signer verifier) :
    ∃ text, Agent.Transit.send d.reprOf d.client.ssl r.now r.draws (bytes payload) type sender = some text ∧
      Genuinely gcm verifier r type payload (r.sent type payload text) := by
  obtain ⟨text, parts, hsend, ⟨env, hc⟩, hsignature⟩ := carried_sent r type hkey hbio hpayload hshort hheld
  exact ⟨text, hsend, ⟨env, parts, _, _, hc, hsignature ▸ hsigns.verifies _ _⟩, (stamps_carries hc).1, rfl, rfl⟩

structure Ready (guard : ReplayGuard Str) (verifier : EcdsaSigner) (now₁ : Int) (m : Sent) (parts : Sealed) : Prop where
  verified : verifier.verify parts.payload parts.signature = true
  onTime : ∀ timestamp ∈ timestampOf m, guard.isWithinWindow now₁ timestamp = true
  unseen : ∀ nonce ∈ nonceOf m, nonce ∉ guard.nonces

section Take

variable {env : Agent.CryptoEnvelope} {parts : Sealed} {now : Int} {draws : Draws} {guard : ReplayGuard Str}

theorem Ready.cppReady (hbio : Bio d.client.ssl limit) (hc : Carries gcm m env parts now draws) (hlegible : Legible m)
    (h : Ready guard verifier now₁ m parts) : Agent.Interop.CppReady d.client.ssl guard now₁ env parts := by
  obtain ⟨hnonce, htimestamp⟩ := stamps_carries hc
  obtain ⟨hsize, htag⟩ := Agent.Transit.sizes_encrypted hc.encrypted
  exact hc.genuine.ready hbio hc.ivSize htag (hsize.trans_le hlegible) (h.onTime _ htimestamp) (h.unseen _ hnonce)

theorem agentTake_ready {codec : Agent.CryptoCodec} (hc : Carries gcm m env parts now draws) (hlegible : Legible m)
    (h : Ready codec.guard codec.verifier now₁ m parts) (hopens : Opens gcm (.cpp codec)) (hbio : Bio d.client.ssl limit)
    (hjson : ReadsFlat d.client.nl) (hcb : d.client.hasMessageCb = true) : d.agentAccepts codec now₁ now₂ m = true ∧
      agentTake d.client codec now₁ now₂ (bytes m.text) =
        .ok ({ codec with guard := codec.guard.recordNonce now₂ (b64Encode draws.nonce) }, reaction agentAckText bytes m) := by
  have hready := h.cppReady hbio hc hlegible
  have henv := hc.fromJson hjson
  have hopen := hopens.cpp hc.ivSize hc.encrypted hc.short
  obtain ⟨hok, hout⟩ := (Agent.Interop.cppDecrypt_ok_iff codec.cipher parts.ciphertext parts.iv parts.tag).mpr
    ⟨hready.ivSize, hready.tagSize, hopen⟩
  rw [← hready.ciphertext, ← hready.iv, ← hready.tag] at hok hout
  have hverify := h.verified
  rw [← hready.payload, ← hready.signature] at hverify
  have haccepts : codec.Accepts d.client.ssl now₁ env := ⟨hready.inWindow, hready.unseen, hverify, hok⟩
  have hdecrypt := Agent.Transit.decrypt_of_accepts now₂ haccepts
  rw [hout] at hdecrypt
  have hactions : agentActions d.client.hasMessageCb env.msgId (bytes m.payload) m.type =
      reaction agentAckText bytes m := by rw [hcb, ← hc.msgId, agentActions_eq]
  constructor
  · rw [Session.agentAccepts, henv]
    exact (Agent.CryptoCodec.decrypt_ok_iff _ _).mpr haccepts
  · rw [agentTake_eq henv hdecrypt hc.genuine.type, hactions, ← hc.genuine.nonce]
    rfl

theorem Ready.decrypts {codec : CryptoCodec} (hc : Carries gcm m env parts now draws)
    (h : Ready codec.guard codec.verifier now₁ m parts) (hopens : Opens gcm (.py codec)) (now₂ : Int) :
    CryptoEnvelope.fromJson m.text = .ok (embed env) ∧ Agent.Transit.msgType (embed env).type = .ok m.type ∧
      (embed env).msgId = .str m.msgId ∧
      codec.decrypt d.reprOf now₁ now₂ m.text = (.ok { plaintext := bytes m.payload, ok := true },
        { codec with guard := codec.guard.recordNonce now₂ (b64Encode draws.nonce) }) := by
  obtain ⟨fields, hwritten, htext⟩ := hc.written
  obtain ⟨hnonce, htimestamp⟩ := stamps_carries hc
  have htag := (Agent.Transit.sizes_encrypted hc.encrypted).2
  have henv : CryptoEnvelope.fromJson m.text = .ok (embed env) := htext ▸ hc.genuine.fromJson hc.int64 hwritten
  have hready : Agent.Interop.PyReady d.reprOf codec.guard now₁ (embed env) parts := hc.genuine.pyReady hc.ivSize htag (h.onTime _ htimestamp) (h.unseen _ hnonce)
  have htype : Agent.Transit.msgType (embed env).type = .ok m.type := by
    change MessageType.parse env.type = .ok m.type
    rw [hc.genuine.type, MessageType.parse_value]
  have hmsgId : (embed env).msgId = .str m.msgId := by rw [hc.msgId, embed]
  exact ⟨henv, htype, hmsgId,
    Agent.Transit.decrypt_genuine henv hc.genuine hready h.verified (hopens.py hc.ivSize hc.encrypted hc.short)⟩

theorem forwarderTake_ready {codec : CryptoCodec} (hc : Carries gcm m env parts now draws)
    (h : Ready codec.guard codec.verifier now₁ m parts) (hopens : Opens gcm (.py codec)) (hcb : d.hasMessageCb = true) :
    d.forwarderAccepts codec now₁ now₂ m = true ∧
      forwarderTake d.reprOf d.hasMessageCb codec now₁ now₂ m.text =
        .ok ({ codec with guard := codec.guard.recordNonce now₂ (b64Encode draws.nonce) }, reaction forwarderAckText id m) := by
  obtain ⟨henv, htype, hmsgId, hdecrypt⟩ := h.decrypts hc hopens now₂
  have hactions : forwarderActions d.hasMessageCb (embed env).msgId (bytes m.payload) m.type =
      reaction forwarderAckText id m := by rw [hcb, hmsgId, forwarderActions_eq hc.payload]
  constructor
  · rw [Session.forwarderAccepts, hdecrypt]
  · rw [forwarderTake_eq henv hdecrypt htype, hactions]

end Take

end Signed

section Line

variable {guard : ReplayGuard Str} {taken sent rest : List Sent} {m : Sent} {nonce : Str} {now : Int}

structure Line (guard : ReplayGuard Str) (taken sent : List Sent) : Prop where
  window : guard.windowMs = 300000
  seen : ∀ nonce ∈ guard.nonces, nonce ∈ taken.filterMap nonceOf
  distinct : (sent.filterMap nonceOf).Nodup

theorem line_fresh : Line (.fresh 300) [] [] := ⟨rfl, nofun, List.nodup_nil⟩

theorem Line.unseen (h : Line guard taken sent) (harrives : sent = taken ++ m :: rest) :
    ∀ nonce ∈ nonceOf m, nonce ∉ guard.nonces := by
  intro nonce hnonce hmem
  have hdistinct := h.distinct
  rw [harrives, List.filterMap_append] at hdistinct
  exact List.disjoint_of_nodup_append hdistinct (h.seen nonce hmem)
    (List.mem_filterMap.mpr ⟨m, List.mem_cons_self, hnonce⟩)

theorem Line.take (h : Line guard taken sent) (hm : nonceOf m = some nonce) (now : Int) :
    Line (guard.recordNonce now nonce) (taken ++ [m]) sent where
  window := h.window
  seen nonce' hmem := by
    rw [List.filterMap_append, List.mem_append]
    rcases Crypto.ReplayGuard.mem_recordNonce.mp hmem with rfl | hold
    · exact .inr (List.mem_filterMap.mpr ⟨m, List.mem_singleton_self m, hm⟩)
    · exact .inl (h.seen nonce' hold)
  distinct := h.distinct

theorem Line.send (h : Line guard taken sent) (hm : nonceOf m = some nonce) (hfresh : nonce ∉ sent.filterMap nonceOf) :
    Line guard taken (sent ++ [m]) where
  window := h.window
  seen := h.seen
  distinct := by
    have hsingle : [m].filterMap nonceOf = [nonce] := by simp [hm]
    rw [List.filterMap_append, hsingle]
    exact List.nodup_append'.mpr
      ⟨h.distinct, List.nodup_singleton nonce, List.disjoint_singleton.mpr hfresh⟩

theorem Line.ready {gcm : AesGcm} {verifier : EcdsaSigner} (h : Line guard taken sent)
    (harrives : sent = taken ++ m :: rest) (hm : Signed gcm verifier m) (honTime : OnTime now m) :
    ∃ env parts stamp draws, Carries gcm m env parts stamp draws ∧ Ready guard verifier now m parts := by
  obtain ⟨env, parts, stamp, draws, hc, hverify⟩ := hm
  refine ⟨env, parts, stamp, draws, hc, hverify, fun timestamp hmem => ?_, h.unseen harrives⟩
  rw [Crypto.ReplayGuard.isWithinWindow_iff, h.window]
  exact honTime timestamp hmem

end Line

section Live

variable {d : Session} {gcm : AesGcm} {limit : Nat} {s t : State} {e : Event}

structure Stamps (gcm : AesGcm) (s : State) : Prop where
  agentLine : Line s.agent.codec.guard s.agent.worker.taken s.forwarder.sent
  forwarderLine : Line s.forwarder.codec.guard s.forwarder.worker.taken s.agent.sent
  toAgent : ∀ m ∈ s.toAgent, Signed gcm s.agent.codec.verifier m
  toForwarder : ∀ m ∈ s.toForwarder, Signed gcm s.forwarder.codec.verifier m
  agentSigns : Signs s.agent.codec.signer s.forwarder.codec.verifier
  forwarderSigns : Signs s.forwarder.codec.signer s.agent.codec.verifier

structure Live (gcm : AesGcm) (s : State) : Prop where
  inv : Inv gcm s
  stamps : Stamps gcm s

theorem Live.agentTakes (hd : Sound d gcm limit) (h : Live gcm s) {now₁ : Int} (now₂ : Int) {m : Sent} {rest : List Sent}
    (hflight : s.toAgent = m :: rest) (honTime : OnTime now₁ m) :
    d.agentAccepts s.agent.codec now₁ now₂ m = true ∧ ∃ nonce, nonceOf m = some nonce ∧
      agentTake d.client s.agent.codec now₁ now₂ (bytes m.text) =
        .ok ({ s.agent.codec with guard := s.agent.codec.guard.recordNonce now₂ nonce }, reaction agentAckText bytes m) := by
  have harrives := h.inv.agent.arrives
  rw [hflight] at harrives
  have hsigned := h.stamps.toAgent m (hflight ▸ List.mem_cons_self)
  have hlegible := (h.inv.toAgent m (hflight ▸ List.mem_cons_self)).2
  obtain ⟨env, parts, now, draws, hc, hready⟩ := h.stamps.agentLine.ready harrives hsigned honTime
  obtain ⟨haccepts, htake⟩ := agentTake_ready hc hlegible hready h.inv.agentKey.opens hd.bio hd.json hd.agentCb
  exact ⟨haccepts, _, (stamps_carries hc).1, htake⟩

theorem Live.forwarderTakes (hd : Sound d gcm limit) (h : Live gcm s) {now₁ : Int} (now₂ : Int) {m : Sent} {rest : List Sent}
    (hflight : s.toForwarder = m :: rest) (honTime : OnTime now₁ m) :
    d.forwarderAccepts s.forwarder.codec now₁ now₂ m = true ∧ ∃ nonce, nonceOf m = some nonce ∧
      forwarderTake d.reprOf d.hasMessageCb s.forwarder.codec now₁ now₂ m.text =
        .ok ({ s.forwarder.codec with guard := s.forwarder.codec.guard.recordNonce now₂ nonce },
          reaction forwarderAckText id m) := by
  have harrives := h.inv.forwarder.arrives
  rw [hflight] at harrives
  have hsigned := h.stamps.toForwarder m (hflight ▸ List.mem_cons_self)
  obtain ⟨env, parts, now, draws, hc, hready⟩ := h.stamps.forwarderLine.ready harrives hsigned honTime
  obtain ⟨haccepts, htake⟩ := forwarderTake_ready hc hready h.inv.forwarderKey.opens hd.forwarderCb
  exact ⟨haccepts, _, (stamps_carries hc).1, htake⟩

theorem Live.assumed (hd : Sound d gcm limit) (h : Live gcm s) (he : Honest limit s e) : d.Assumed limit s e := by
  cases e with
  | agentSends r type payload => exact ⟨he.1, he.2.1, he.2.2.1, he.2.2.2.1⟩
  | agentTakes now₁ now₂ =>
      intro m hhead
      obtain ⟨rest, hflight⟩ := List.head?_eq_some_iff.mp hhead
      exact (h.agentTakes hd now₂ hflight (he m hhead)).1
  | agentActs r => exact he.1
  | forwarderSends r type payload => exact ⟨he.1, he.2.1, he.2.2.1, he.2.2.2.1⟩
  | forwarderTakes now₁ now₂ =>
      intro m hhead
      obtain ⟨rest, hflight⟩ := List.head?_eq_some_iff.mp hhead
      exact (h.forwarderTakes hd now₂ hflight (he m hhead)).1
  | forwarderActs r => exact he.1

theorem Stamps.agentPuts (h : Stamps gcm s) {r : Readings} {type : MessageType} {payload : Str} {m : Sent}
    (hm : Genuinely gcm s.forwarder.codec.verifier r type payload m) (hfresh : Fresh s.agent.sent r)
    {p : Dispatch.Party Agent.CryptoCodec Bytes} (hcodec : p.codec = s.agent.codec) (hsent : p.sent = s.agent.sent)
    (htaken : p.worker.taken = s.agent.worker.taken) : Stamps gcm ({ s with agent := p }.agentPuts [m]) where
  agentLine := by
    change Line p.codec.guard p.worker.taken s.forwarder.sent
    rw [hcodec, htaken]
    exact h.agentLine
  forwarderLine := by
    change Line s.forwarder.codec.guard s.forwarder.worker.taken (p.sent ++ [m])
    rw [hsent]
    exact h.forwarderLine.send hm.nonce hfresh
  toAgent := by
    change ∀ m ∈ s.toAgent, Signed gcm p.codec.verifier m
    rw [hcodec]
    exact h.toAgent
  toForwarder := List.forall_mem_append.mpr ⟨h.toForwarder, fun _ hmem => List.mem_singleton.mp hmem ▸ hm.signed⟩
  agentSigns := by
    change Signs p.codec.signer s.forwarder.codec.verifier
    rw [hcodec]
    exact h.agentSigns
  forwarderSigns := by
    change Signs s.forwarder.codec.signer p.codec.verifier
    rw [hcodec]
    exact h.forwarderSigns

theorem Stamps.forwarderPuts (h : Stamps gcm s) {r : Readings} {type : MessageType} {payload : Str} {m : Sent}
    (hm : Genuinely gcm s.agent.codec.verifier r type payload m) (hfresh : Fresh s.forwarder.sent r)
    {p : Dispatch.Party CryptoCodec Str} (hcodec : p.codec = s.forwarder.codec) (hsent : p.sent = s.forwarder.sent)
    (htaken : p.worker.taken = s.forwarder.worker.taken) : Stamps gcm ({ s with forwarder := p }.forwarderPuts [m]) where
  agentLine := by
    change Line s.agent.codec.guard s.agent.worker.taken (p.sent ++ [m])
    rw [hsent]
    exact h.agentLine.send hm.nonce hfresh
  forwarderLine := by
    change Line p.codec.guard p.worker.taken s.agent.sent
    rw [hcodec, htaken]
    exact h.forwarderLine
  toAgent := List.forall_mem_append.mpr ⟨h.toAgent, fun _ hmem => List.mem_singleton.mp hmem ▸ hm.signed⟩
  toForwarder := by
    change ∀ m ∈ s.toForwarder, Signed gcm p.codec.verifier m
    rw [hcodec]
    exact h.toForwarder
  agentSigns := by
    change Signs s.agent.codec.signer p.codec.verifier
    rw [hcodec]
    exact h.agentSigns
  forwarderSigns := by
    change Signs p.codec.signer s.agent.codec.verifier
    rw [hcodec]
    exact h.forwarderSigns

theorem Live.agentAcks (hd : Sound d gcm limit) (h : Live gcm s) {payload : Str} {rest : List (Action Bytes)}
    (hpending : s.agent.worker.pending = .ack payload :: rest) (r : Readings) : ∃ text,
      Agent.Transit.send d.reprOf d.client.ssl r.now r.draws (bytes payload) .ack (.cpp s.agent.codec) = some text ∧
      Genuinely gcm s.forwarder.codec.verifier r .ack payload (r.sent .ack payload text) := by
  obtain ⟨hpayload, hshort⟩ := h.inv.agent.text payload (hpending ▸ List.mem_cons_self)
  have hsize := hshort.trans_le hd.bio.atLeast
  exact genuinely_sent r .ack h.inv.agentKey hd.bio hpayload (hsize.trans_le hd.bio.atMost) hsize h.stamps.agentSigns

theorem Live.forwarderAcks (hd : Sound d gcm limit) (h : Live gcm s) {payload : Str} {rest : List (Action Str)}
    (hpending : s.forwarder.worker.pending = .ack payload :: rest) (r : Readings) : Scalar payload ∧ ∃ text,
      Agent.Transit.send d.reprOf d.client.ssl r.now r.draws (bytes payload) .ack (.py s.forwarder.codec) = some text ∧
      Genuinely gcm s.agent.codec.verifier r .ack payload (r.sent .ack payload text) := by
  obtain ⟨hpayload, hshort⟩ := h.inv.forwarder.text payload (hpending ▸ List.mem_cons_self)
  exact ⟨hpayload, genuinely_sent r .ack h.inv.forwarderKey hd.bio hpayload (hshort.trans (by decide)) trivial
    h.stamps.forwarderSigns⟩

theorem stamps_agentSends (hd : Sound d gcm limit) (h : Live gcm s) {r : Readings} {type : MessageType} {payload : Str}
    (he : Honest limit s (.agentSends r type payload)) (ht : d.step s (.agentSends r type payload) = some t) :
    Stamps gcm t := by
  obtain ⟨-, hpayload, hsize, hwritten, hfresh⟩ := he
  obtain ⟨text, hsend, hm⟩ := genuinely_sent r type h.inv.agentKey hd.bio hpayload (hsize.trans_le hd.bio.atMost) hsize
    h.stamps.agentSigns
  have hwire := agentWire_of_send hwritten hsend
  cases d.moves_of_step ht with
  | agentSent hsent =>
      cases hwire.symm.trans hsent
      exact h.stamps.agentPuts hm hfresh rfl rfl rfl
  | agentUnsent hunsent => cases hwire.symm.trans hunsent

theorem stamps_agentTakes (hd : Sound d gcm limit) (h : Live gcm s) {now₁ now₂ : Int}
    (he : Honest limit s (.agentTakes now₁ now₂)) (ht : d.step s (.agentTakes now₁ now₂) = some t) : Stamps gcm t := by
  cases d.moves_of_step ht with
  | agentTook _ hflight htook =>
      obtain ⟨-, nonce, hnonce, htake⟩ := h.agentTakes hd now₂ hflight (he _ (by rw [hflight]; rfl))
      cases htake.symm.trans htook
      exact
        { h.stamps with
          agentLine := h.stamps.agentLine.take hnonce now₂
          toAgent := fun m' hmem => h.stamps.toAgent m' (hflight ▸ List.mem_cons_of_mem _ hmem) }
  | agentFailed _ hflight hfailed =>
      obtain ⟨-, nonce, -, htake⟩ := h.agentTakes hd now₂ hflight (he _ (by rw [hflight]; rfl))
      cases htake.symm.trans hfailed

theorem stamps_agentActs (hd : Sound d gcm limit) (h : Live gcm s) {r : Readings} (he : Honest limit s (.agentActs r))
    (ht : d.step s (.agentActs r) = some t) : Stamps gcm t := by
  obtain ⟨hwritten, hfresh⟩ := he
  cases d.moves_of_step ht with
  | agentAcked hpending hacked =>
      obtain ⟨text, hsend, hm⟩ := h.agentAcks hd hpending r
      cases (agentWire_of_send hwritten hsend).symm.trans hacked
      exact h.stamps.agentPuts hm hfresh rfl rfl rfl
  | agentUnacked hpending hunacked =>
      obtain ⟨text, hsend, -⟩ := h.agentAcks hd hpending r
      cases (agentWire_of_send hwritten hsend).symm.trans hunacked
  | agentDispatched => exact { h.stamps with }

theorem stamps_forwarderSends (hd : Sound d gcm limit) (h : Live gcm s) {r : Readings} {type : MessageType} {payload : Str}
    (he : Honest limit s (.forwarderSends r type payload)) (ht : d.step s (.forwarderSends r type payload) = some t) :
    Stamps gcm t := by
  obtain ⟨-, hpayload, hsize, hwritten, hfresh⟩ := he
  obtain ⟨text, hsend, hm⟩ := genuinely_sent r type h.inv.forwarderKey hd.bio hpayload (lt_of_le_of_lt hsize (by decide))
    trivial h.stamps.forwarderSigns
  cases d.moves_of_step ht
  rw [forwarderWire_of_send hwritten hpayload hsend]
  exact h.stamps.forwarderPuts hm hfresh rfl rfl rfl

theorem stamps_forwarderTakes (hd : Sound d gcm limit) (h : Live gcm s) {now₁ now₂ : Int}
    (he : Honest limit s (.forwarderTakes now₁ now₂)) (ht : d.step s (.forwarderTakes now₁ now₂) = some t) :
    Stamps gcm t := by
  cases d.moves_of_step ht with
  | forwarderTook _ hflight htook =>
      obtain ⟨-, nonce, hnonce, htake⟩ := h.forwarderTakes hd now₂ hflight (he _ (by rw [hflight]; rfl))
      cases htake.symm.trans htook
      exact
        { h.stamps with
          forwarderLine := h.stamps.forwarderLine.take hnonce now₂
          toForwarder := fun m' hmem => h.stamps.toForwarder m' (hflight ▸ List.mem_cons_of_mem _ hmem) }
  | forwarderFailed _ hflight hfailed =>
      obtain ⟨-, nonce, -, htake⟩ := h.forwarderTakes hd now₂ hflight (he _ (by rw [hflight]; rfl))
      cases htake.symm.trans hfailed

theorem stamps_forwarderActs (hd : Sound d gcm limit) (h : Live gcm s) {r : Readings} (he : Honest limit s (.forwarderActs r))
    (ht : d.step s (.forwarderActs r) = some t) : Stamps gcm t := by
  obtain ⟨hwritten, hfresh⟩ := he
  cases d.moves_of_step ht with
  | forwarderAcked hpending =>
      obtain ⟨hpayload, text, hsend, hm⟩ := h.forwarderAcks hd hpending r
      rw [forwarderWire_of_send hwritten hpayload hsend]
      exact h.stamps.forwarderPuts hm hfresh rfl rfl rfl
  | forwarderDispatched => exact { h.stamps with }

theorem live_step (hd : Sound d gcm limit) (h : Live gcm s) (he : Honest limit s e) (ht : d.step s e = some t) : Live gcm t := by
  refine ⟨inv_step hd h.inv (h.assumed hd he) ht, ?_⟩
  cases e with
  | agentSends r type payload => exact stamps_agentSends hd h he ht
  | agentTakes now₁ now₂ => exact stamps_agentTakes hd h he ht
  | agentActs r => exact stamps_agentActs hd h he ht
  | forwarderSends r type payload => exact stamps_forwarderSends hd h he ht
  | forwarderTakes now₁ now₂ => exact stamps_forwarderTakes hd h he ht
  | forwarderActs r => exact stamps_forwarderActs hd h he ht

end Live

section Flow

variable {lib : Agent.Handshake.Library} {flib : Handshake.Library} {cfg : Config} {a : Attempt}
  {l : Handshake.Local} {aes : Aes} {limit : Nat} {agent : Agent.Handshake.Session} {forwarder : Handshake.Session}

theorem sound_sessionOf (haes : aes.Lawful) (hbio : Bio lib.ssl limit) (hjson : ReadsFlat lib.nl) (hjoined : Joined agent forwarder) :
    Sound (sessionOf lib flib aes agent forwarder) (aes.gcm agent.sharedSecret) limit where
  agentCb := rfl
  forwarderCb := rfl
  json := hjson
  bio := hbio
  agentKey :=
    have hkey := haes.agent (agentCodec aes agent) _ rfl hjoined.size
    ⟨hkey.1, hkey.2, hjoined.agentSigns.der⟩
  forwarderKey :=
    have hkey := haes.forwarder (forwarderCodec aes forwarder) _ (congrArg aes.forwarder hjoined.secret) hjoined.size
    ⟨hkey.1, hkey.2, hjoined.forwarderSigns.der⟩

theorem live_init (haes : aes.Lawful) (hbio : Bio lib.ssl limit) (hjson : ReadsFlat lib.nl) (hjoined : Joined agent forwarder) :
    Live (aes.gcm agent.sharedSecret)
      (sessionOf lib flib aes agent forwarder).machine.init where
  inv := inv_init (sound_sessionOf haes hbio hjson hjoined)
  stamps := ⟨line_fresh, line_fresh, nofun, nofun, hjoined.agentSigns, hjoined.forwarderSigns⟩

theorem traffic_flows (p : Pair lib flib a l) (haes : aes.Lawful) (hbio : Bio lib.ssl limit) (hjson : ReadsFlat lib.nl)
    (hsends : l.sends = true) {ecdh : Agent.Handshake.EcdhKeyExchange} {text : Str}
    (hsend : sendInit lib cfg a = .ok (ecdh, text)) : ∃ agent forwarder,
      Established lib flib cfg a l text agent forwarder ∧
      ∀ es, (sessionOf lib flib aes agent forwarder).machine.Guarded (Honest limit)
          (sessionOf lib flib aes agent forwarder).machine.init es →
        (sessionOf lib flib aes agent forwarder).machine.Always Orderly
          (sessionOf lib flib aes agent forwarder).machine.init es := by
  obtain ⟨agent, forwarder, h⟩ := established_of_pair p hbio hjson hsends hsend
  have hd : Sound (sessionOf lib flib aes agent forwarder) (aes.gcm agent.sharedSecret) limit :=
    sound_sessionOf haes hbio hjson h.joined
  refine ⟨agent, forwarder, h, fun es hes => ?_⟩
  exact Machine.always_of_guarded _ (fun hs he ht => live_step hd hs he ht) (fun hs => hs.inv.orderly)
    (live_init haes hbio hjson h.joined) hes

end Flow

section Sample

open Agent.Transit (sampleGcm samplePy sampleCpp)

def sampleAes : Aes where
  gcm := fun _ => sampleGcm
  agent := fun _ => sampleCpp.cipher
  forwarder := fun _ => samplePy.cipher

theorem sample_lawful : sampleAes.Lawful where
  agent c key hcipher _ := by
    have hcipher : c.cipher = sampleCpp.cipher := hcipher
    simp only [Seals, Opens, hcipher]
    exact ⟨Agent.Transit.sample_seals.2, Agent.Transit.sample_opens.2⟩
  forwarder c key hcipher _ := by
    have hcipher : c.cipher = samplePy.cipher := hcipher
    simp only [Seals, Opens, hcipher]
    exact ⟨Agent.Transit.sample_seals.1, Agent.Transit.sample_opens.1⟩

open Agent.Handshake (sampleConfig sampleAttempt keyOf)

def sampleTraffic : Session where
  reprOf := sampleForwarder.reprOf
  client := ⟨sampleAgent.nl, sampleAgent.ssl, true⟩
  hasMessageCb := true
  agentCodec := ⟨sampleCpp.cipher, ⟨some (keysOf 3).signer, none⟩, ⟨none, some (keyOf 1)⟩, .fresh 300⟩
  forwarderCodec := ⟨samplePy.cipher, ⟨some (keysOf 1).signer, none⟩, ⟨none, some (keyOf 3)⟩, .fresh 300⟩

theorem session_established {text : Str} {agent : Agent.Handshake.Session} {forwarder : Handshake.Session}
    (h : Established sampleAgent sampleForwarder sampleConfig (sampleAttempt []) sampleLocal text agent forwarder) :
    sessionOf sampleAgent sampleForwarder sampleAes agent forwarder = sampleTraffic := by
  have hagent : agent.signer = (keysOf 3).signer := (Except.ok.inj h.keys.agentSigner).symm
  have hforwarder : forwarder.signer = (keysOf 1).signer := (Except.ok.inj h.keys.forwarderSigner).symm
  obtain ⟨pem, k, hpem, hk, hagentVerifier⟩ := h.keys.agentVerifier
  cases hpem
  cases hk.symm.trans samplePair.forwarder_loads
  obtain ⟨pem, k, hpem, hk, hforwarderVerifier⟩ := h.keys.forwarderVerifier
  cases hpem
  cases hk.symm.trans samplePair.agent_loads
  simp only [sessionOf, agentCodec, forwarderCodec, hagent, hforwarder, hagentVerifier, hforwarderVerifier]
  rfl

theorem exchange_honest : sampleTraffic.machine.IsRun exchangeRun ∧
    sampleTraffic.machine.Guarded (Honest 2147483648) sampleTraffic.machine.init exchangeRun := by decide +kernel

theorem traffic_flows_exchangeRun : ∃ text agent forwarder,
    Established sampleAgent sampleForwarder sampleConfig (sampleAttempt []) sampleLocal text agent forwarder ∧
      (sessionOf sampleAgent sampleForwarder sampleAes agent forwarder).machine.IsRun exchangeRun ∧
      (sessionOf sampleAgent sampleForwarder sampleAes agent forwarder).machine.Always Orderly
        (sessionOf sampleAgent sampleForwarder sampleAes agent forwarder).machine.init exchangeRun := by
  obtain ⟨⟨ecdh, text⟩, hsend⟩ := sample_sends
  obtain ⟨agent, forwarder, h, hflows⟩ :=
    traffic_flows samplePair sample_lawful Agent.Transit.sample_bio Agent.Transit.sample_readsFlat rfl hsend
  have hsession := session_established h
  obtain ⟨hrun, hhonest⟩ := exchange_honest
  rw [← hsession] at hrun hhonest
  exact ⟨text, agent, forwarder, h, hrun, hflows exchangeRun hhonest⟩

end Sample

end Ws.Traffic
