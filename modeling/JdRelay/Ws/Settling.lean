import JdRelay.Ws.Traffic

namespace Ws.Settling
open Text Json Crypto Runs Dispatch Traffic
open IoLoop (Action)
open Agent (bytes)
open Agent.Transit (AesGcm Bio ReadsFlat)

section Work

variable {P : Type}

def cost : Action P → Nat
  | .ack _ => 2
  | .dispatch _ _ => 1

def owed (actions : List (Action P)) : Nat := (actions.map cost).sum

def price (m : Sent) : Nat := 1 + ((if Answered m then 2 else 0) + if Business m then 1 else 0)

def load (ms : List Sent) : Nat := (ms.map price).sum

def work (s : State) : Nat :=
  load s.toAgent + load s.toForwarder + owed s.agent.worker.pending + owed s.forwarder.worker.pending

structure Settled (s : State) : Prop where
  toAgent : s.toAgent = []
  toForwarder : s.toForwarder = []
  agent : s.agent.worker.pending = []
  forwarder : s.forwarder.worker.pending = []

theorem owed_reaction (ackText : Sent → Str) (plain : Str → P) (m : Sent) :
    owed (reaction ackText plain m) + 1 = price m := by
  unfold reaction price
  by_cases hanswered : Answered m <;> by_cases hbusiness : Business m <;> simp [hanswered, hbusiness, owed, cost]

theorem price_ack {m : Sent} (hm : m.type = .ack) : price m = 1 := by
  simp [price, Answered, Business, hm]

theorem load_cons (m : Sent) (ms : List Sent) : load (m :: ms) = price m + load ms := by simp [load]

theorem load_append_ack {m : Sent} (hm : m.type = .ack) (ms : List Sent) : load (ms ++ [m]) = load ms + 1 := by
  simp [load, price_ack hm]

theorem owed_cons (a : Action P) (actions : List (Action P)) : owed (a :: actions) = cost a + owed actions := by
  simp [owed]

theorem load_eq_zero {ms : List Sent} : load ms = 0 ↔ ms = [] := by
  cases ms with
  | nil => simp [load]
  | cons m ms =>
      rw [load_cons, price]
      simp

theorem owed_eq_zero {actions : List (Action P)} : owed actions = 0 ↔ actions = [] := by
  cases actions with
  | nil => simp [owed]
  | cons a actions =>
      rw [owed_cons]
      cases a <;> simp [cost]

theorem settled_iff {s : State} : Settled s ↔ work s = 0 := by
  simp only [work, Nat.add_eq_zero_iff, load_eq_zero, owed_eq_zero, and_assoc]
  exact ⟨fun h => ⟨h.toAgent, h.toForwarder, h.agent, h.forwarder⟩, fun h => ⟨h.1, h.2.1, h.2.2.1, h.2.2.2⟩⟩

end Work

section Step

def Quiet : Event → Prop
  | .agentSends _ _ _ => False
  | .forwarderSends _ _ _ => False
  | _ => True

def Moves (d : Session) (s : State) : Prop :=
  (∀ now₁ now₂, (d.step s (.agentTakes now₁ now₂)).isSome) ∨ (∀ r, (d.step s (.agentActs r)).isSome) ∨
    (∀ now₁ now₂, (d.step s (.forwarderTakes now₁ now₂)).isSome) ∨ ∀ r, (d.step s (.forwarderActs r)).isSome

variable {d : Session} {gcm : AesGcm} {limit : Nat} {s t : State} {e : Event}

theorem work_agentTakes (hd : Sound d gcm limit) (h : Live gcm s) {now₁ now₂ : Int} (he : Honest limit s (.agentTakes now₁ now₂))
    (ht : d.step s (.agentTakes now₁ now₂) = some t) : work t + 1 = work s := by
  cases d.moves_of_step ht with
  | @agentTook _ _ m rest _ _ hpending hflight htook =>
      obtain ⟨-, nonce, -, htake⟩ := h.agentTakes hd now₂ hflight (he m (by rw [hflight]; rfl))
      cases htake.symm.trans htook
      have hprice := owed_reaction agentAckText bytes m
      have hidle : owed s.agent.worker.pending = 0 := owed_eq_zero.mpr hpending
      change load rest + load s.toForwarder + owed (reaction agentAckText bytes m) + owed s.forwarder.worker.pending + 1 = _
      rw [work, hflight, load_cons]
      omega
  | agentFailed _ hflight hfailed =>
      obtain ⟨-, nonce, -, htake⟩ := h.agentTakes hd now₂ hflight (he _ (by rw [hflight]; rfl))
      cases htake.symm.trans hfailed

theorem work_forwarderTakes (hd : Sound d gcm limit) (h : Live gcm s) {now₁ now₂ : Int}
    (he : Honest limit s (.forwarderTakes now₁ now₂)) (ht : d.step s (.forwarderTakes now₁ now₂) = some t) :
    work t + 1 = work s := by
  cases d.moves_of_step ht with
  | @forwarderTook _ _ m rest _ _ hpending hflight htook =>
      obtain ⟨-, nonce, -, htake⟩ := h.forwarderTakes hd now₂ hflight (he m (by rw [hflight]; rfl))
      cases htake.symm.trans htook
      have hprice := owed_reaction forwarderAckText id m
      have hidle : owed s.forwarder.worker.pending = 0 := owed_eq_zero.mpr hpending
      change load s.toAgent + load rest + owed s.agent.worker.pending + owed (reaction forwarderAckText id m) + 1 = _
      rw [work, hflight, load_cons]
      omega
  | forwarderFailed _ hflight hfailed =>
      obtain ⟨-, nonce, -, htake⟩ := h.forwarderTakes hd now₂ hflight (he _ (by rw [hflight]; rfl))
      cases htake.symm.trans hfailed

theorem work_agentActs (hd : Sound d gcm limit) (h : Live gcm s) {r : Readings} (he : Honest limit s (.agentActs r))
    (ht : d.step s (.agentActs r) = some t) : work t + 1 = work s := by
  cases d.moves_of_step ht with
  | @agentAcked _ payload rest _ hpending hacked =>
      obtain ⟨text, hsend, -⟩ := h.agentAcks hd hpending r
      cases (agentWire_of_send he.1 hsend).symm.trans hacked
      change load s.toAgent + load (s.toForwarder ++ [r.sent .ack payload text]) + owed rest +
        owed s.forwarder.worker.pending + 1 = _
      rw [work, hpending, owed_cons, load_append_ack rfl, cost]
      omega
  | agentUnacked hpending hunacked =>
      obtain ⟨text, hsend, -⟩ := h.agentAcks hd hpending r
      cases (agentWire_of_send he.1 hsend).symm.trans hunacked
  | @agentDispatched _ type plaintext rest hpending =>
      change load s.toAgent + load s.toForwarder + owed rest + owed s.forwarder.worker.pending + 1 = _
      rw [work, hpending, owed_cons, cost]
      omega

theorem work_forwarderActs (hd : Sound d gcm limit) (h : Live gcm s) {r : Readings} (he : Honest limit s (.forwarderActs r))
    (ht : d.step s (.forwarderActs r) = some t) : work t + 1 = work s := by
  cases d.moves_of_step ht with
  | @forwarderAcked _ payload rest hpending =>
      obtain ⟨hpayload, text, hsend, -⟩ := h.forwarderAcks hd hpending r
      rw [forwarderWire_of_send he.1 hpayload hsend]
      change load (s.toAgent ++ [r.sent .ack payload text]) + load s.toForwarder + owed s.agent.worker.pending +
        owed rest + 1 = _
      rw [work, hpending, owed_cons, load_append_ack rfl, cost]
      omega
  | @forwarderDispatched _ type plaintext rest hpending =>
      change load s.toAgent + load s.toForwarder + owed s.agent.worker.pending + owed rest + 1 = _
      rw [work, hpending, owed_cons, cost]
      omega

theorem work_step (hd : Sound d gcm limit) (h : Live gcm s) (he : Honest limit s e ∧ Quiet e) (ht : d.step s e = some t) :
    work t + 1 = work s := by
  cases e with
  | agentSends r type payload => exact he.2.elim
  | agentTakes now₁ now₂ => exact work_agentTakes hd h he.1 ht
  | agentActs r => exact work_agentActs hd h he.1 ht
  | forwarderSends r type payload => exact he.2.elim
  | forwarderTakes now₁ now₂ => exact work_forwarderTakes hd h he.1 ht
  | forwarderActs r => exact work_forwarderActs hd h he.1 ht

theorem agentActs_isSome (halive : s.agent.failed = false) {a : Action Bytes} {rest : List (Action Bytes)}
    (hpending : s.agent.worker.pending = a :: rest) (r : Readings) : (d.step s (.agentActs r)).isSome := by
  cases a with
  | ack payload =>
      simp only [Session.step, halive, hpending]
      split <;> rfl
  | dispatch type plaintext =>
      simp only [Session.step, halive, hpending]
      rfl

theorem agentTakes_isSome (halive : s.agent.failed = false) (hidle : s.agent.worker.pending = []) {m : Sent}
    {rest : List Sent} (hflight : s.toAgent = m :: rest) (now₁ now₂ : Int) :
    (d.step s (.agentTakes now₁ now₂)).isSome := by
  simp only [Session.step, halive, hidle, hflight]
  split <;> rfl

theorem forwarderActs_isSome (halive : s.forwarder.failed = false) {a : Action Str} {rest : List (Action Str)}
    (hpending : s.forwarder.worker.pending = a :: rest) (r : Readings) : (d.step s (.forwarderActs r)).isSome := by
  cases a <;> simp only [Session.step, halive, hpending] <;> rfl

theorem forwarderTakes_isSome (halive : s.forwarder.failed = false) (hidle : s.forwarder.worker.pending = []) {m : Sent}
    {rest : List Sent} (hflight : s.toForwarder = m :: rest) (now₁ now₂ : Int) :
    (d.step s (.forwarderTakes now₁ now₂)).isSome := by
  simp only [Session.step, halive, hidle, hflight]
  split <;> rfl

theorem moves_of_live (h : Live gcm s) (hs : ¬Settled s) : Moves d s := by
  have hagent : s.agent.failed = false := h.inv.agent.alive
  have hforwarder : s.forwarder.failed = false := h.inv.forwarder.alive
  rcases hap : s.agent.worker.pending with _ | ⟨a, rest⟩
  · rcases hta : s.toAgent with _ | ⟨m, rest⟩
    · rcases hfp : s.forwarder.worker.pending with _ | ⟨a, rest⟩
      · rcases htf : s.toForwarder with _ | ⟨m, rest⟩
        · exact absurd ⟨hta, htf, hap, hfp⟩ hs
        · exact .inr (.inr (.inl (forwarderTakes_isSome hforwarder hfp htf)))
      · exact .inr (.inr (.inr (forwarderActs_isSome hforwarder hfp)))
    · exact .inl (agentTakes_isSome hagent hap hta)
  · exact .inr (.inl (agentActs_isSome hagent hap))

end Step

section Delivered

structure Delivered (s : State) : Prop where
  toAgent : s.agent.worker.done.filterMap dispatched =
    (s.forwarder.sent.filter (Business ·)).map fun m => (m.type, bytes m.payload)
  toForwarder : s.forwarder.worker.done.filterMap dispatched =
    (s.agent.sent.filter (Business ·)).map fun m => (m.type, m.payload)
  agentAcks : acksOf s.agent.sent = (s.forwarder.sent.filter (Answered ·)).map agentAckText
  forwarderAcks : acksOf s.forwarder.sent = (s.agent.sent.filter (Answered ·)).map forwarderAckText

theorem delivered_of_settled {s : State} (h : Orderly s) (hs : Settled s) : Delivered s := by
  have hagent := h.agent.arrives
  have hforwarder := h.forwarder.arrives
  rw [hs.toAgent, List.append_nil] at hagent
  rw [hs.toForwarder, List.append_nil] at hforwarder
  constructor
  · rw [h.agent.dispatches hs.agent, hagent]
  · rw [h.forwarder.dispatches hs.forwarder, hforwarder]
    rfl
  · rw [h.agent.acks hs.agent, hagent]
  · rw [h.forwarder.acks hs.forwarder, hforwarder]

end Delivered

section Settles

variable {lib : Agent.Handshake.Library} {flib : Handshake.Library} {aes : Aes} {agent : Agent.Handshake.Session}
  {forwarder : Handshake.Session} {limit : Nat}

theorem session_settles (haes : aes.Lawful) (hbio : Bio lib.ssl limit) (hjson : ReadsFlat lib.nl)
    (hjoined : Establish.Joined agent forwarder) {es fs : List Event} {s t : State}
    (hes : (sessionOf lib flib aes agent forwarder).machine.Guarded (Honest limit)
      (sessionOf lib flib aes agent forwarder).machine.init es)
    (hs : (sessionOf lib flib aes agent forwarder).machine.exec
      (sessionOf lib flib aes agent forwarder).machine.init es = some s)
    (hfs : (sessionOf lib flib aes agent forwarder).machine.Guarded (fun s e => Honest limit s e ∧ Quiet e) s fs)
    (ht : (sessionOf lib flib aes agent forwarder).machine.exec s fs = some t) :
    fs.length + work t = work s ∧ (Settled t ↔ fs.length = work s) ∧
      (¬Settled t → Moves (sessionOf lib flib aes agent forwarder) t) ∧ (Settled t → Delivered t) := by
  have hd : Sound (sessionOf lib flib aes agent forwarder) (aes.gcm agent.sharedSecret) limit :=
    sound_sessionOf haes hbio hjson hjoined
  have hlive : Live (aes.gcm agent.sharedSecret) s :=
    Machine.invariant_of_guarded _ (C := Honest limit) (fun hs he ht => live_step hd hs he ht)
      (live_init haes hbio hjson hjoined) hes hs
  have hlive' : Live (aes.gcm agent.sharedSecret) t :=
    Machine.invariant_of_guarded _ (C := fun s e => Honest limit s e ∧ Quiet e) (fun hs he ht => live_step hd hs he.1 ht)
      hlive hfs ht
  have hwork : fs.length + work t = work s :=
    Machine.length_add_work _ (G := fun s e => Honest limit s e ∧ Quiet e) (fun hs he ht => live_step hd hs he.1 ht)
      (fun hs he ht => work_step hd hs he ht) hlive hfs ht
  refine ⟨hwork, ?_, moves_of_live hlive', delivered_of_settled hlive'.inv.orderly⟩
  rw [settled_iff]
  omega

instance : (e : Event) → Decidable (Quiet e)
  | .agentSends _ _ _ => .isFalse id
  | .forwarderSends _ _ _ => .isFalse id
  | .agentTakes _ _ => .isTrue trivial
  | .agentActs _ => .isTrue trivial
  | .forwarderTakes _ _ => .isTrue trivial
  | .forwarderActs _ => .isTrue trivial

open Establish (sampleAgent sampleForwarder)

def burst : List Event :=
  [.agentSends (readingsOf 1) .heartbeat [], .forwarderSends (readingsOf 2) .buildTrigger (str "app"),
    .forwarderSends (readingsOf 3) .buildTrigger (str "web")]

def answers : List Event :=
  [.forwarderTakes 1700000000000 1700000000000, .agentTakes 1700000000000 1700000000000, .agentActs (readingsOf 4),
    .forwarderActs (readingsOf 5), .agentActs (readingsOf 6), .agentTakes 1700000000000 1700000000000,
    .forwarderTakes 1700000000000 1700000000000, .agentActs (readingsOf 7), .agentActs (readingsOf 8),
    .forwarderTakes 1700000000000 1700000000000, .agentTakes 1700000000000 1700000000000]

def waiting : State := (sampleTraffic.machine.exec sampleTraffic.machine.init burst).getD sampleTraffic.machine.init

theorem burst_honest : sampleTraffic.machine.IsRun burst ∧
    sampleTraffic.machine.Guarded (Honest 2147483648) sampleTraffic.machine.init burst := by decide +kernel

theorem answers_honest : (sampleTraffic.machine.exec waiting answers).isSome = true ∧
    sampleTraffic.machine.Guarded (fun s e => Honest 2147483648 s e ∧ Quiet e) waiting answers := by decide +kernel

theorem burst_waiting : sampleTraffic.machine.exec sampleTraffic.machine.init burst = some waiting := by
  obtain ⟨s, hs⟩ := Option.isSome_iff_exists.mp burst_honest.1
  rw [waiting, hs, Option.getD_some]

theorem session_settles_burst : ∃ t, sampleTraffic.machine.exec waiting answers = some t ∧ Settled t ∧ Delivered t := by
  obtain ⟨⟨ecdh, text⟩, hsend⟩ := Establish.sample_sends
  obtain ⟨agent, forwarder, h⟩ := Establish.established_of_pair Establish.samplePair Agent.Transit.sample_bio
    Agent.Transit.sample_readsFlat rfl hsend
  have hsession := session_established h
  have hes := burst_honest.2
  have hs := burst_waiting
  have hfs := answers_honest.2
  obtain ⟨t, hrun⟩ := Option.isSome_iff_exists.mp answers_honest.1
  have ht := hrun
  rw [← hsession] at hes hs hfs ht
  obtain ⟨-, hsettled, -, hdelivered⟩ :=
    session_settles sample_lawful Agent.Transit.sample_bio Agent.Transit.sample_readsFlat h.joined hes hs hfs ht
  have hwork : answers.length = work waiting := by decide +kernel
  exact ⟨t, hrun, hsettled.mpr hwork, hdelivered (hsettled.mpr hwork)⟩

end Settles

end Ws.Settling
