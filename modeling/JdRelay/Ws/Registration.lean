import JdRelay.Base.Runs
import JdRelay.Ws.AgentManager
import JdRelay.Ws.Handshake

namespace Ws.Registration
open Text Json Runs Crypto Handshake
open Python (DictKey dictKey)

inductive Phase where
  | handshaking
  | handshaken (init : HandshakeInit)
  | looping (init : HandshakeInit)
  | closing (init : Option HandshakeInit)
  | ended
  deriving DecidableEq

structure Accepted (H : Type) where
  conn : H
  raw : Option Str
  init : HandshakeInit

-- The send callback of the connection h is h. The two lists remember what came through so far.
structure State (H : Type) where
  manager : AgentManager DictKey H
  phase : H → Phase
  accepted : List (Accepted H)
  registered : List (H × HandshakeInit)

inductive Event (H : Type) where
  | handshake (h : H) (l : Local) (raw : Option Str)
  | addAgent (h : H)
  | disconnect (h : H)
  | removeAgent (h : H)
  | stopAll

-- A project that is no dict key ends the loop with a TypeError.
def routed : List Value → List DictKey × Bool
  | [] => ([], true)
  | p :: ps =>
      match dictKey p with
      | none => ([], false)
      | some k => (k :: (routed ps).1, (routed ps).2)

structure Entry where
  agentId : DictKey
  projects : List DictKey
  complete : Bool
  deriving DecidableEq

-- none where add_agent raises before it has stored anything.
def entryOf (init : HandshakeInit) : Option Entry := do
  let projects ← Python.iterate init.projects
  let agentId ← dictKey init.agentId
  some { agentId, projects := (routed projects).1, complete := (routed projects).2 }

def removable : DictKey → Bool
  | .none => false
  | .num n => n ≠ 0
  | .float _ => true
  | .str s => s ≠ [] && s ≠ str "<unknown>"

def leave : Phase → Option Phase
  | .handshaking => some (.closing none)
  | .handshaken init => some (.closing (some init))
  | .looping init => some (.closing (some init))
  | _ => none

variable {H : Type}

def unregister (m : AgentManager DictKey H) (init : Option HandshakeInit) : AgentManager DictKey H :=
  match init.bind fun init => dictKey init.agentId with
  | none => m
  | some k => if removable k then m.removeAgent k else m

structure Parties (H P : Type) where
  party : H → P
  owner : Str → P
  projects : Str → List Str

section Parties

variable {P : Type} (g : Parties H P)

def SameKeys (s : State H) : Prop :=
  ∀ x : Str, ∀ a ∈ s.registered, ∀ b ∈ s.registered, a.2.agentId = .str x → b.2.agentId = .str x →
    a.2.ecdsaPubPem = b.2.ecdsaPubPem

def Routed (m : AgentManager DictKey H) (x : Str) (info : AgentInfo DictKey H) : Prop :=
  m.getByAgent (.str x) = some info ∨ ∃ p ∈ g.projects x, m.getByProject (.str p) = some info

def Owned (m : AgentManager DictKey H) : Prop := ∀ x info, Routed g m x info → g.party info.send = g.owner x

def Bound (s : State H) : Prop := SameKeys s ∧ Owned g s.manager

def Claims (m : AgentManager DictKey H) (x : Str) (e : Entry) : Prop :=
  e.agentId = .str x ∨ isNone e.agentId = false ∧
    ∃ p ∈ g.projects x, DictKey.str p ∈ e.projects ∨ m.projectToAgent.lookup (.str p) = some e.agentId

def Listed (keys : Str → Value) (init : HandshakeInit) : Prop := ∀ x, init.agentId = .str x → init.ecdsaPubPem = keys x

-- Whoever registers is in the directory of keys, under no agent_id and for no project of another party.
def OwnIdentity (keys : Str → Value) (s : State H) : Event H → Prop
  | .addAgent h => ∀ init e, s.phase h = .handshaken init → s.manager.stopped = false → entryOf init = some e →
      Listed keys init ∧ ∀ x, Claims g s.manager x e → g.party h = g.owner x
  | _ => True

theorem routes_unregister {g : Parties H P} {m : AgentManager DictKey H} {init : Option HandshakeInit} {x : Str}
    {info : AgentInfo DictKey H} (h : Routed g (unregister m init) x info) : Routed g m x info := by
  unfold unregister at h
  split at h
  · exact h
  · split at h
    · cases hstopped : m.stopped with
      | true => simpa [AgentManager.removeAgent, hstopped] using h
      | false =>
          rcases h with hget | ⟨p, hp, hget⟩
          · rw [AgentManager.getByAgent_removeAgent hstopped] at hget
            split at hget
            · cases hget
            · exact .inl hget
          · rw [AgentManager.getByProject_removeAgent hstopped] at hget
            split at hget
            · cases hget
            · exact .inr ⟨p, hp, hget⟩
    · exact h

theorem sameKeys_of_listed {s : State H} {keys : Str → Value} (h : ∀ a ∈ s.registered, Listed keys a.2) : SameKeys s :=
  fun x a ha b hb hax hbx => (h a ha x hax).trans (h b hb x hbx).symm

theorem exists_keys {s : State H} (h : SameKeys s) : ∃ keys : Str → Value, ∀ a ∈ s.registered, Listed keys a.2 := by
  refine ⟨fun x => ((s.registered.find? fun a => decide (a.2.agentId = .str x)).map (·.2.ecdsaPubPem)).getD .null, ?_⟩
  intro a ha x hx
  have hfound : (s.registered.find? fun a => decide (a.2.agentId = .str x)).isSome :=
    List.find?_isSome.mpr ⟨a, ha, decide_eq_true hx⟩
  obtain ⟨b, hb⟩ := Option.isSome_iff_exists.mp hfound
  have hbx := List.find?_some hb
  simp only [hb, Option.map_some, Option.getD_some]
  exact h x a ha b (List.mem_of_find?_eq_some hb) hx (of_decide_eq_true hbx)

end Parties

variable [DecidableEq H]

def State.goto (s : State H) (h : H) (p : Phase) : State H := { s with phase := Function.update s.phase h p }

def State.register (s : State H) (h : H) (init : HandshakeInit) (e : Entry) : State H where
  manager := s.manager.addAgent e.agentId e.projects h
  phase := Function.update s.phase h (if e.complete then .looping init else .closing (some init))
  accepted := s.accepted
  registered := (h, init) :: s.registered

variable (lib : Library)

def step (s : State H) : Event H → Option (State H)
  | .handshake h l raw =>
      match s.phase h, (doHandshake lib l raw).outcome with
      | .handshaking, .ok session =>
          some { s.goto h (.handshaken session.init) with accepted := ⟨h, raw, session.init⟩ :: s.accepted }
      | .handshaking, .error _ => some (s.goto h (.closing none))
      | _, _ => none
  | .addAgent h =>
      match s.phase h with
      | .handshaken init =>
          if s.manager.stopped then some (s.goto h (.looping init))
          else
            match entryOf init with
            | none => some (s.goto h (.closing (some init)))
            | some e => some (s.register h init e)
      | _ => none
  | .disconnect h => (leave (s.phase h)).map (s.goto h)
  | .removeAgent h =>
      match s.phase h with
      | .closing init => some { s.goto h .ended with manager := unregister s.manager init }
      | _ => none
  | .stopAll => some { s with manager := s.manager.stopAll }

def machine : Machine (State H) (Event H) where
  init := { manager := .empty, phase := fun _ => .handshaking, accepted := [], registered := [] }
  step := step lib

section Moves

variable {lib} {s t : State H} {e : Event H}

inductive Moves (lib : Library) (s : State H) : Event H → State H → Prop
  | accept {h : H} {l : Local} {raw : Option Str} {session : Session} (hphase : s.phase h = .handshaking)
      (hdone : (doHandshake lib l raw).outcome = .ok session) :
      Moves lib s (.handshake h l raw)
        { s.goto h (.handshaken session.init) with accepted := ⟨h, raw, session.init⟩ :: s.accepted }
  | refuse {h : H} {l : Local} {raw : Option Str} (hphase : s.phase h = .handshaking) :
      Moves lib s (.handshake h l raw) (s.goto h (.closing none))
  | pass {h : H} {init : HandshakeInit} (hphase : s.phase h = .handshaken init) (hstopped : s.manager.stopped = true) :
      Moves lib s (.addAgent h) (s.goto h (.looping init))
  | fail {h : H} {init : HandshakeInit} (hphase : s.phase h = .handshaken init) (hentry : entryOf init = none) :
      Moves lib s (.addAgent h) (s.goto h (.closing (some init)))
  | register {h : H} {init : HandshakeInit} {entry : Entry} (hphase : s.phase h = .handshaken init)
      (hrun : s.manager.stopped = false) (hentry : entryOf init = some entry) :
      Moves lib s (.addAgent h) (s.register h init entry)
  | leave {h : H} {p : Phase} (hp : leave (s.phase h) = some p) : Moves lib s (.disconnect h) (s.goto h p)
  | remove {h : H} {init : Option HandshakeInit} (hphase : s.phase h = .closing init) :
      Moves lib s (.removeAgent h) { s.goto h .ended with manager := unregister s.manager init }
  | stop : Moves lib s .stopAll { s with manager := s.manager.stopAll }

theorem moves_of_step (h : step lib s e = some t) : Moves lib s e t := by
  cases e with
  | handshake i l raw =>
      simp only [step] at h
      split at h
      · rename_i hphase hdone
        cases h
        exact .accept hphase hdone
      · rename_i hphase _
        cases h
        exact .refuse hphase
      · cases h
  | addAgent i =>
      simp only [step] at h
      split at h
      · rename_i init hphase
        split at h
        · rename_i hstopped
          cases h
          exact .pass hphase hstopped
        · rename_i hrun
          split at h
          · rename_i hentry
            cases h
            exact .fail hphase hentry
          · rename_i entry hentry
            cases h
            exact .register hphase (Bool.not_eq_true _ ▸ hrun) hentry
      · cases h
  | disconnect i =>
      obtain ⟨p, hp, rfl⟩ := Option.map_eq_some_iff.mp h
      exact .leave hp
  | removeAgent i =>
      simp only [step] at h
      split at h
      · rename_i init hphase
        cases h
        exact .remove hphase
      · cases h
  | stopAll =>
      cases h
      exact .stop

end Moves

section Replay

variable {lib} {s t : State H} {e : Event H}

structure Inv (lib : Library) (s : State H) : Prop where
  once : (s.accepted.map (·.conn)).Nodup
  past : ∀ a ∈ s.accepted, s.phase a.conn ≠ .handshaking
  done : ∀ a ∈ s.accepted, ∃ l session, (doHandshake lib l a.raw).outcome = .ok session ∧ session.init = a.init

theorem past_goto {h : H} {p : Phase} (hs : ∀ a ∈ s.accepted, s.phase a.conn ≠ .handshaking) (hp : p ≠ .handshaking) :
    ∀ a ∈ s.accepted, Function.update s.phase h p a.conn ≠ .handshaking := by
  intro a ha
  rcases eq_or_ne a.conn h with heq | hne
  · rwa [heq, Function.update_self]
  · rw [Function.update_of_ne hne]
    exact hs a ha

theorem leave_ne_handshaking {p q : Phase} (h : leave p = some q) : q ≠ .handshaking := by
  cases p <;> cases h <;> nofun

theorem inv_goto (hs : Inv lib s) {h : H} {p : Phase} (hp : p ≠ .handshaking) : Inv lib (s.goto h p) :=
  ⟨hs.once, past_goto hs.past hp, hs.done⟩

theorem inv_accept (hs : Inv lib s) {h : H} {l : Local} {raw : Option Str} {session : Session}
    (hphase : s.phase h = .handshaking) (hdone : (doHandshake lib l raw).outcome = .ok session) :
    Inv lib { s.goto h (.handshaken session.init) with accepted := ⟨h, raw, session.init⟩ :: s.accepted } where
  once := by
    refine List.nodup_cons.mpr ⟨fun hmem => ?_, hs.once⟩
    obtain ⟨a, ha, rfl⟩ := List.mem_map.mp hmem
    exact hs.past a ha hphase
  past := by
    intro a ha
    rcases List.mem_cons.mp ha with rfl | ha
    · simp [State.goto]
    · have hp : Phase.handshaken session.init ≠ .handshaking := nofun
      exact past_goto hs.past hp a ha
  done := by
    intro a ha
    rcases List.mem_cons.mp ha with rfl | ha
    · exact ⟨l, session, hdone, rfl⟩
    · exact hs.done a ha

theorem inv_step (hs : Inv lib s) (h : step lib s e = some t) : Inv lib t := by
  cases moves_of_step h with
  | accept hphase hdone => exact inv_accept hs hphase hdone
  | refuse => exact inv_goto hs (by simp)
  | pass => exact inv_goto hs (by simp)
  | fail => exact inv_goto hs (by simp)
  | register =>
      refine ⟨hs.once, past_goto hs.past ?_, hs.done⟩
      split <;> simp
  | leave hp => exact inv_goto hs (leave_ne_handshaking hp)
  | remove => exact ⟨hs.once, past_goto hs.past (by simp), hs.done⟩
  | stop => exact ⟨hs.once, hs.past, hs.done⟩

theorem getByAgent_register (hrun : s.manager.stopped = false) (h : H) (init : HandshakeInit) (e : Entry)
    (k : DictKey) :
    ((s.register h init e).manager.getByAgent k).map (·.send) =
      if k = e.agentId then some h else (s.manager.getByAgent k).map (·.send) := by
  rw [State.register, AgentManager.getByAgent_addAgent hrun]
  split <;> rfl

theorem resent_init_accepted (hs : (machine lib : Machine (State H) (Event H)).Reachable s) :
    (s.accepted.map (·.conn)).Nodup ∧
    (∀ p : Holder, p.Secure lib → ∀ a ∈ s.accepted, ∀ pem, encodeUtf8Of a.init.ecdsaPubPem = .ok pem →
      lib.loadPublicKey pem = .ok p.key →
        ∃ built ∈ p.built, encodeUtf8 (signingData lib.reprOf a.init) = some built.signingData) ∧
    (∀ a ∈ s.accepted, ∀ h l, s.phase h = .handshaking → Ready l a.init →
      ∃ t, step lib s (.handshake h l a.raw) = some t ∧ t.phase h = .handshaken a.init ∧ t.manager = s.manager) ∧
    ∀ h init e, s.phase h = .handshaken init → s.manager.stopped = false → entryOf init = some e →
      ∃ t, step lib s (.addAgent h) = some t ∧
        ∀ k, (t.manager.getByAgent k).map (·.send) =
          if k = e.agentId then some h else (s.manager.getByAgent k).map (·.send) := by
  have hinv : Inv lib s := (machine lib).invariant
    ⟨List.nodup_nil, fun _ h => absurd h List.not_mem_nil, fun _ h => absurd h List.not_mem_nil⟩ inv_step hs
  refine ⟨hinv.once, fun p hp a ha pem hpem hkey => ?_, fun a ha h l hphase hready => ?_,
    fun h init e hphase hrun hentry => ?_⟩
  · obtain ⟨l, session, hdone, hinit⟩ := hinv.done a ha
    obtain ⟨-, -, -, -, pem', data, k, -, hverified⟩ := doHandshake_ok hdone
    rw [hinit] at hverified
    cases hverified.encoded.symm.trans hpem
    cases hverified.loaded.symm.trans hkey
    obtain ⟨built, hbuilt, rfl⟩ := built_of_verified hp hverified
    exact ⟨built, hbuilt, hverified.signed⟩
  · obtain ⟨l₀, session₀, hdone₀, hinit₀⟩ := hinv.done a ha
    obtain ⟨session, hdone, hinit⟩ := doHandshake_again hdone₀ (hinit₀ ▸ hready)
    refine ⟨{ s.goto h (.handshaken session.init) with accepted := ⟨h, a.raw, session.init⟩ :: s.accepted },
      by simp only [step, hphase, hdone], ?_, rfl⟩
    rw [← hinit₀, ← hinit]
    exact Function.update_self ..
  · exact ⟨s.register h init e, by simp [step, hphase, hrun, hentry], getByAgent_register hrun h init e⟩

-- false is the agent's connection and true the one of somebody who recorded its init.
def replayRun : List (Event Bool) :=
  [.handshake false sampleLocal (some genuineText), .addAgent false,
    .handshake true sampleLocal (some genuineText), .addAgent true]

def Phase.live : Phase → Bool
  | .looping _ => true
  | _ => false

theorem replay_replaces :
    ((machine sampleLibrary).exec (machine sampleLibrary).init replayRun).map
        (fun s => (s.accepted.map (·.conn), s.accepted.map fun a => decide (a.init ∈ acceptedInit genuineText),
          (s.phase false).live, (s.manager.getByAgent (.str (str "build|7"))).map (·.send))) =
      some ([true, false], [true, true], true, some true) := by decide +kernel

-- The forwarder makes a new key pair for every connection.
def otherLocal : Local :=
  { sampleLocal with
    ecdh := { sampleLocal.ecdh with publicKeyPem := Agent.Handshake.pemOf "Other ECDH" }
    entropy := [1] }

def liveRun : List (Event Bool) := [.handshake false sampleLocal (some genuineText), .addAgent false]

def live : State Bool := ((machine sampleLibrary).exec (machine sampleLibrary).init liveRun).getD (machine sampleLibrary).init

theorem live_checked :
    ((machine sampleLibrary).exec (machine sampleLibrary).init liveRun).isSome = true ∧
      (live.manager.getByAgent (.str (str "build|7"))).map (·.send) = some false ∧ live.phase true = .handshaking ∧
      live.manager.stopped = false ∧
      live.accepted.map (fun a => (a.raw, a.init.ecdhPubPem)) =
        [(some genuineText, .str (Agent.Handshake.pemOf "ECDH"))] ∧
      live.accepted.map (fun a => (entryOf a.init).map (·.agentId)) = [some (.str (str "build|7"))] ∧
      encodeAsciiOf (.str (Agent.Handshake.pemOf "ECDH")) = .ok (Agent.bytes (Agent.Handshake.pemOf "ECDH")) ∧
      (encodeUtf8 (otherLocal.ecdh.publicKeyPem ++ str "|" ++ Agent.Handshake.pemOf "Forwarder")).isSome = true := by
  decide +kernel

theorem live_exec : (machine sampleLibrary).exec (machine sampleLibrary).init liveRun = some live := by
  obtain ⟨s, hs⟩ := Option.isSome_iff_exists.mp live_checked.1
  rw [live, hs, Option.getD_some]

theorem otherLocal_ready {init : HandshakeInit} (h : init.ecdhPubPem = .str (Agent.Handshake.pemOf "ECDH")) :
    Ready otherLocal init := by
  obtain ⟨-, -, -, -, -, -, hascii, hsigned⟩ := live_checked
  refine ⟨fun pem hpem => ?_, ⟨_, rfl⟩, ⟨_, rfl, Option.isSome_iff_exists.mp hsigned⟩, rfl⟩
  rw [h, hascii, Except.ok.injEq] at hpem
  exact ⟨[5], if_pos (hpem ▸ List.suffix_rfl)⟩

theorem resent_init_accepted_replayRun :
    (live.manager.getByAgent (.str (str "build|7"))).map (·.send) = some false ∧ ∃ t u,
      step sampleLibrary live (.handshake true otherLocal (some genuineText)) = some t ∧
      step sampleLibrary t (.addAgent true) = some u ∧
      (u.manager.getByAgent (.str (str "build|7"))).map (·.send) = some true ∧ (t.accepted.map (·.conn)).Nodup := by
  have hreach : (machine sampleLibrary).Reachable live := ⟨liveRun, live_exec⟩
  obtain ⟨-, hrecorded, hphase, hrun, haccepted, hentry, -⟩ := live_checked
  refine ⟨hrecorded, ?_⟩
  generalize live = s at *
  obtain ⟨a, hlist, ha⟩ := List.map_eq_singleton_iff.mp haccepted
  rw [hlist, List.map_singleton, List.singleton_inj] at hentry
  obtain ⟨hraw, hecdh⟩ := Prod.mk.inj ha
  obtain ⟨e, he, hid⟩ := Option.map_eq_some_iff.mp hentry
  obtain ⟨-, -, hagain, -⟩ := resent_init_accepted hreach
  obtain ⟨t, ht, htphase, htmanager⟩ :=
    hagain a (hlist ▸ List.mem_singleton_self a) true otherLocal hphase (otherLocal_ready hecdh)
  have hnext : (machine sampleLibrary).step s (.handshake true otherLocal a.raw) = some t := ht
  obtain ⟨honce, -, -, hadd⟩ := resent_init_accepted (hreach.next hnext)
  obtain ⟨u, hu, hget⟩ := hadd true a.init e htphase (htmanager ▸ hrun) he
  have hsend := hget (.str (str "build|7"))
  rw [hid, if_pos rfl] at hsend
  exact ⟨t, u, hraw ▸ ht, hu, hsend, honce⟩

end Replay

section Identity

variable {P : Type} {g : Parties H P} {lib} {s t : State H} {e : Event H}

theorem routes_register {h : H} {init : HandshakeInit} {e : Entry} (hrun : s.manager.stopped = false) {x : Str}
    {info : AgentInfo DictKey H} (hroutes : Routed g (s.register h init e).manager x info) :
    (Claims g s.manager x e ∧ info.send = h) ∨ Routed g s.manager x info := by
  rcases hroutes with hget | ⟨p, hp, hget⟩
  · rw [State.register, AgentManager.getByAgent_addAgent hrun] at hget
    split at hget
    · rename_i heq
      cases hget
      exact .inl ⟨.inl heq.symm, rfl⟩
    · exact .inr (.inl hget)
  · rw [State.register, AgentManager.getByProject_addAgent hrun] at hget
    split at hget
    · rename_i hclaim
      cases hnone : isNone e.agentId with
      | true =>
          rw [hnone] at hget
          cases hget
      | false =>
          rw [hnone] at hget
          cases hget
          exact .inl ⟨.inr ⟨hnone, p, hp, hclaim⟩, rfl⟩
    · exact .inr (.inr ⟨p, hp, hget⟩)

theorem routes_of_claims (h : H) (init : HandshakeInit) {e : Entry} (hrun : s.manager.stopped = false) {x : Str}
    (hclaims : Claims g s.manager x e) : ∃ info, Routed g (s.register h init e).manager x info ∧ info.send = h := by
  rcases hclaims with heq | ⟨hnone, p, hp, hclaim⟩
  · refine ⟨⟨e.agentId, e.projects, h⟩, .inl ?_, rfl⟩
    rw [State.register, AgentManager.getByAgent_addAgent hrun, if_pos heq.symm]
  · refine ⟨⟨e.agentId, e.projects, h⟩, .inr ⟨p, hp, ?_⟩, rfl⟩
    rw [State.register, AgentManager.getByProject_addAgent hrun, if_pos hclaim, hnone]
    rfl

theorem owned_register (init : HandshakeInit) {h : H} {e : Entry} (hrun : s.manager.stopped = false)
    (hs : Owned g s.manager) :
    Owned g (s.register h init e).manager ↔ ∀ x, Claims g s.manager x e → g.party h = g.owner x := by
  constructor
  · intro howned x hclaims
    obtain ⟨info, hinfo, rfl⟩ := routes_of_claims h init hrun hclaims
    exact howned x info hinfo
  · intro hclaims x info hroutes
    rcases routes_register hrun hroutes with ⟨hclaim, rfl⟩ | hold
    · exact hclaims x hclaim
    · exact hs x info hold

structure Known (g : Parties H P) (keys : Str → Value) (s : State H) : Prop where
  listed : ∀ a ∈ s.registered, Listed keys a.2
  owned : Owned g s.manager

theorem known_step {keys : Str → Value} (hs : Known g keys s) (he : OwnIdentity g keys s e) (h : step lib s e = some t) :
    Known g keys t := by
  cases moves_of_step h with
  | accept => exact ⟨hs.listed, hs.owned⟩
  | refuse => exact ⟨hs.listed, hs.owned⟩
  | pass => exact ⟨hs.listed, hs.owned⟩
  | fail => exact ⟨hs.listed, hs.owned⟩
  | register hphase hrun hentry =>
      obtain ⟨hlisted, hclaims⟩ := he _ _ hphase hrun hentry
      exact ⟨List.forall_mem_cons.mpr ⟨hlisted, hs.listed⟩, (owned_register _ hrun hs.owned).mpr hclaims⟩
  | leave => exact ⟨hs.listed, hs.owned⟩
  | remove => exact ⟨hs.listed, fun x info hroutes => hs.owned x info (routes_unregister hroutes)⟩
  | stop =>
      refine ⟨hs.listed, fun x info hroutes => ?_⟩
      rcases hroutes with hget | ⟨p, -, hget⟩ <;> cases hget

theorem registered_step (h : step lib s e = some t) : s.registered ⊆ t.registered := by
  cases moves_of_step h with
  | register => exact List.subset_cons_self _ _
  | _ => exact List.Subset.refl _

theorem registered_exec {es : List (Event H)} (h : (machine lib).exec s es = some t) : s.registered ⊆ t.registered := by
  induction es generalizing s with
  | nil =>
      cases h
      exact List.Subset.refl _
  | cons e es ih =>
      obtain ⟨u, hu, hrest⟩ := (machine lib).exec_cons.mp h
      exact List.Subset.trans (registered_step hu) (ih hrest)

theorem own_of_known {keys : Str → Value} (hs : Owned g s.manager) (ht : Known g keys t) (h : step lib s e = some t) :
    OwnIdentity g keys s e := by
  cases moves_of_step h with
  | pass _ hstopped =>
      intro _ _ _ hrun
      rw [hstopped] at hrun
      cases hrun
  | fail hphase hnone =>
      intro init' e hphase' _ hentry
      cases hphase.symm.trans hphase'
      cases hnone.symm.trans hentry
  | register hphase hrun hentry =>
      intro init' e hphase' _ hentry'
      cases hphase.symm.trans hphase'
      cases hentry.symm.trans hentry'
      exact ⟨ht.listed _ List.mem_cons_self, (owned_register _ hrun hs).mp ht.owned⟩
  | _ => trivial

theorem guarded_of_bound {keys : Str → Value} {es : List (Event H)} (h : (machine lib).exec s es = some t)
    (ht : ∀ a ∈ t.registered, Listed keys a.2) (hbound : (machine lib).Always (Bound g) s es) :
    (machine lib).Guarded (OwnIdentity g keys) s es := by
  induction es generalizing s with
  | nil => trivial
  | cons e es ih =>
      obtain ⟨u, hu, hrest⟩ := (machine lib).exec_cons.mp h
      have hnext : ∀ v, step lib s e = some v → v = u := fun v hv => Option.some.inj (hv.symm.trans hu)
      have hubound := (machine lib).always_head (hbound.2 u hu)
      have hlisted : ∀ a ∈ u.registered, Listed keys a.2 := fun a ha => ht a (registered_exec hrest ha)
      refine ⟨own_of_known hbound.1.2 ⟨hlisted, hubound.2⟩ hu, fun v hv => ?_⟩
      obtain rfl := hnext v hv
      exact ih hrest (hbound.2 v hv)

def sampleParties : Parties Bool Bool where
  party := id
  owner := fun _ => false
  projects := fun _ => [str "app"]

def malloryText : Str :=
  initText (str "build|7") [str "app"] (Agent.Handshake.pemOf "ECDH") (Agent.Handshake.pemOf "Mallory") [8]

def impostorRun : List (Event Bool) :=
  [.handshake false sampleLocal (some genuineText), .addAgent false,
    .handshake true sampleLocal (some malloryText), .addAgent true]

theorem impostorRun_routed : ((machine sampleLibrary).exec (machine sampleLibrary).init impostorRun).map
    (fun s => (s.manager.getByAgent (.str (str "build|7"))).map (·.send)) = some (some true) := by decide +kernel

theorem impostorRun_isRun : (machine sampleLibrary).IsRun impostorRun := by
  obtain ⟨t, ht, -⟩ := Option.map_eq_some_iff.mp impostorRun_routed
  exact Option.isSome_of_eq_some ht

theorem not_bound_impostorRun :
    ¬ (machine sampleLibrary).Always (Bound sampleParties) (machine sampleLibrary).init impostorRun := by
  intro h
  obtain ⟨t, ht, hsend⟩ := Option.map_eq_some_iff.mp impostorRun_routed
  obtain ⟨info, hinfo, hinfoSend⟩ := Option.map_eq_some_iff.mp hsend
  have hbound := ((machine sampleLibrary).always_exec h ht).2 (str "build|7") info (.inl hinfo)
  rw [hinfoSend] at hbound
  cases hbound

def ownerParties : Parties Bool Bool := { sampleParties with party := fun _ => false }

def Phase.waits : Phase → Option HandshakeInit
  | .handshaken init => some init
  | _ => none

def UnderKey (key : Value) (s : State Bool) : Event Bool → Prop
  | .addAgent h => ∀ init ∈ (s.phase h).waits, init.ecdsaPubPem = key
  | _ => True

instance (key : Value) (s : State Bool) : (e : Event Bool) → Decidable (UnderKey key s e)
  | .addAgent h => inferInstanceAs (Decidable (∀ init ∈ (s.phase h).waits, init.ecdsaPubPem = key))
  | .handshake _ _ _ => .isTrue trivial
  | .disconnect _ => .isTrue trivial
  | .removeAgent _ => .isTrue trivial
  | .stopAll => .isTrue trivial

theorem replayRun_underKey : (machine sampleLibrary).IsRun replayRun ∧
    (machine sampleLibrary).Guarded (UnderKey (.str (Agent.Handshake.pemOf "Agent"))) (machine sampleLibrary).init
      replayRun := by decide +kernel

theorem own_of_underKey {key : Value} {s : State Bool} {e : Event Bool} (h : UnderKey key s e) :
    OwnIdentity ownerParties (fun _ => key) s e := by
  cases e with
  | addAgent i =>
      intro init entry hphase _ _
      refine ⟨fun x _ => h init ?_, fun _ _ => rfl⟩
      rw [hphase]
      exact rfl
  | _ => trivial

end Identity

end Ws.Registration
