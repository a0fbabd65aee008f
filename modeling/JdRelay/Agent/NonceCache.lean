import JdRelay.Agent.Transit
import JdRelay.Base.Runs

namespace Agent.NonceCache
open Text Json Crypto Runs Interop Transit

inductive Message where
  | py (text : Str)
  | cpp (env : CryptoEnvelope)

-- One call of decrypt with the clock readings of its window test and of the recorded expiry.
structure Call where
  now₁ : Int
  now₂ : Int
  message : Message

-- accepted holds the expiries of the accepted messages, received the time of the last call if that one accepted.
structure Session where
  party : Party
  clock : Int
  accepted : List Int
  received : Option Int

variable (reprOf : Value → Str) (ssl : OpenSsl)

def decrypt : Party → Call → Option (Bool × Party)
  | .py c, ⟨now₁, now₂, .py text⟩ =>
      let r := c.decrypt reprOf now₁ now₂ text
      some (match r.1 with
        | .ok out => out.ok
        | .error _ => false, .py r.2)
  | .cpp c, ⟨now₁, now₂, .cpp env⟩ =>
      let r := c.decrypt ssl now₁ now₂ env
      some (r.1.ok, .cpp r.2)
  | _, _ => none

def step (s : Session) (e : Call) : Option Session :=
  if s.clock ≤ e.now₁ ∧ e.now₁ ≤ e.now₂ then
    (decrypt reprOf ssl s.party e).map fun r =>
      if r.1 then
        { party := r.2
          clock := e.now₂
          accepted := (e.now₂ + s.party.guard.windowMs) :: s.accepted
          received := some e.now₁ }
      else { s with party := r.2, clock := e.now₂, received := none }
  else none

def fresh : Party → Party
  | .py c => .py { c with guard := .fresh c.guard.windowSeconds }
  | .cpp c => .cpp { c with guard := .fresh c.guard.windowSeconds }

def machine (party : Party) (start : Int) : Machine Session Call where
  init := { party := fresh party, clock := start, accepted := [], received := none }
  step := step reprOf ssl

def Purged (s : Session) : Prop :=
  ∀ now, s.received = some now →
    s.party.guard.nonces.size ≤ 10000 ∨ ∀ n expiry, s.party.guard.nonces.lookup n = some expiry → now ≤ expiry

def Accepted (s : Session) (e : Call) : Prop := ∃ party, decrypt reprOf ssl s.party e = some (true, party)

def Room (s : Session) (e : Call) : Prop :=
  Accepted reprOf ssl s e → s.accepted.length < 10000 ∨ ∀ expiry ∈ s.accepted, e.now₁ ≤ expiry

structure Kept (s : Session) : Prop where
  size : s.party.guard.nonces.size = s.accepted.length
  expiries : ∀ expiry, expiry ∈ s.accepted ↔ ∃ n, s.party.guard.nonces.lookup n = some expiry

section Steps

variable {reprOf ssl} {s t : Session} {e : Call} {p q : Party}

structure Recorded (p q : Party) (now₂ : Int) (n : Str) : Prop where
  unseen : n ∉ p.guard.nonces
  window : 0 ≤ p.guard.windowMs
  recorded : q.guard = p.guard.recordNonce now₂ n

theorem recorded_py {c : Crypto.CryptoCodec} {now₁ now₂ : Int} {text : Str} {env : Crypto.CryptoEnvelope}
    {plaintext : Bytes} (h : c.validate reprOf now₁ text = .ok (env, plaintext)) :
    ∃ n, Recorded (.py c) (.py (c.recordNonce now₂ env.nonce)) now₂ n := by
  obtain ⟨-, hfresh, ⟨payload, data, signature, hsigned⟩, -⟩ := Crypto.CryptoCodec.validate_ok reprOf h
  obtain ⟨_, n, _, _, _, _, -, hnonce, -⟩ := Crypto.CryptoEnvelope.buildSigningPayload_ok hsigned.built
  have hwindow := Python.le_of_between hfresh.inWindow
  refine ⟨n, hfresh.unseen n hnonce, ?_, ?_⟩
  · change 0 ≤ c.guard.windowMs
    omega
  · rw [hnonce]
    rfl

theorem recorded_cpp {c : CryptoCodec} {now₁ now₂ : Int} {env : CryptoEnvelope}
    (h : (c.decrypt ssl now₁ now₂ env).1.ok = true) :
    Recorded (.cpp c) (.cpp (c.decrypt ssl now₁ now₂ env).2) now₂ env.nonce := by
  have haccepts := (CryptoCodec.decrypt_ok_iff ssl c).mp h
  have hwindow := Crypto.ReplayGuard.isWithinWindow_iff.mp haccepts.inWindow
  refine ⟨?_, ?_, ?_⟩
  · have hunseen := haccepts.unseen
    rw [ReplayGuard.isReplay_eq] at hunseen
    exact of_decide_eq_false hunseen
  · change 0 ≤ c.guard.windowMs
    omega
  · rw [decrypt_of_accepts now₂ haccepts]
    rfl

theorem decrypt_cases {ok : Bool} (h : decrypt reprOf ssl p e = some (ok, q)) :
    (ok = false ∧ q = p) ∨ (ok = true ∧ ∃ n, Recorded p q e.now₂ n) := by
  obtain ⟨now₁, now₂, message⟩ := e
  cases p with
  | py c =>
      cases message with
      | py text =>
          simp only [decrypt, Crypto.CryptoCodec.decrypt, Option.some.injEq, Prod.mk.injEq] at h
          obtain ⟨rfl, rfl⟩ := h
          cases hvalidate : c.validate reprOf now₁ text with
          | error refusal => cases refusal <;> exact .inl ⟨rfl, rfl⟩
          | ok out =>
              obtain ⟨env, plaintext⟩ := out
              exact .inr ⟨rfl, recorded_py hvalidate⟩
      | cpp env => cases h
  | cpp c =>
      cases message with
      | py text => cases h
      | cpp env =>
          simp only [decrypt, Option.some.injEq, Prod.mk.injEq] at h
          obtain ⟨rfl, rfl⟩ := h
          cases hok : (c.decrypt ssl now₁ now₂ env).1.ok with
          | true => exact .inr ⟨rfl, env.nonce, recorded_cpp hok⟩
          | false =>
              refine .inl ⟨rfl, ?_⟩
              simp only [CryptoCodec.decrypt] at hok ⊢
              split_ifs at hok ⊢ <;> rfl

theorem step_cases (h : step reprOf ssl s e = some t) :
    (¬Accepted reprOf ssl s e ∧ t.party = s.party ∧ t.accepted = s.accepted ∧ t.received = none) ∨
      (Accepted reprOf ssl s e ∧ (∃ n, Recorded s.party t.party e.now₂ n) ∧ e.now₁ ≤ e.now₂ ∧
        t.accepted = (e.now₂ + s.party.guard.windowMs) :: s.accepted ∧ t.received = some e.now₁) := by
  unfold step at h
  split at h
  · rename_i hclock
    obtain ⟨⟨ok, q⟩, hdecrypt, rfl⟩ := Option.map_eq_some_iff.mp h
    rcases decrypt_cases hdecrypt with ⟨rfl, rfl⟩ | ⟨rfl, hrecorded⟩
    · refine .inl ⟨?_, rfl, rfl, rfl⟩
      rintro ⟨party, haccepted⟩
      rw [hdecrypt] at haccepted
      cases haccepted
    · exact .inr ⟨⟨q, hdecrypt⟩, hrecorded, hclock.2, rfl, rfl⟩
  · cases h

theorem kept_step (hs : Kept s) (h : step reprOf ssl s e = some t) : Kept t := by
  rcases step_cases h with ⟨-, hparty, haccepted, -⟩ | ⟨-, ⟨n, hn⟩, -, haccepted, -⟩
  · obtain ⟨hsize, hexpiries⟩ := hs
    exact ⟨by rw [hparty, haccepted, hsize], by rw [hparty, haccepted]; exact hexpiries⟩
  · refine ⟨?_, fun expiry => ?_⟩
    · rw [hn.recorded, Crypto.ReplayGuard.recordNonce, Dict.size_insert hn.unseen, haccepted, hs.size, List.length_cons]
    · simp only [hn.recorded, haccepted, List.mem_cons, hs.expiries, ReplayGuard.lookup_recordNonce]
      constructor
      · rintro (rfl | ⟨m, hm⟩)
        · exact ⟨n, if_pos rfl⟩
        · refine ⟨m, ?_⟩
          have hne : m ≠ n := by
            rintro rfl
            exact hn.unseen (AList.lookup_isSome.mp (by rw [hm]; rfl))
          rw [if_neg hne, hm]
      · rintro ⟨m, hm⟩
        split at hm
        · exact .inl (Option.some.inj hm).symm
        · exact .inr ⟨m, hm⟩

theorem purged_step (hs : Kept s) (h : step reprOf ssl s e = some t) : Purged t ↔ Room reprOf ssl s e := by
  have ht := kept_step hs h
  have hexpiries : (∀ n expiry, t.party.guard.nonces.lookup n = some expiry → e.now₁ ≤ expiry) ↔
      ∀ expiry ∈ t.accepted, e.now₁ ≤ expiry := by
    refine ⟨fun hall expiry hmem => ?_, fun hall n expiry hlook => hall expiry ((ht.expiries expiry).mpr ⟨n, hlook⟩)⟩
    obtain ⟨n, hlook⟩ := (ht.expiries expiry).mp hmem
    exact hall n expiry hlook
  rcases step_cases h with ⟨hrefused, -, -, hreceived⟩ | ⟨haccepts, ⟨n, hn⟩, hclock, haccepted, hreceived⟩
  · refine iff_of_true (fun now hnow => ?_) (fun haccepts => absurd haccepts hrefused)
    rw [hreceived] at hnow
    cases hnow
  · have hnew : e.now₁ ≤ e.now₂ + s.party.guard.windowMs := by
      have hwindow := hn.window
      omega
    have hpurged : Purged t ↔ t.accepted.length ≤ 10000 ∨ ∀ expiry ∈ t.accepted, e.now₁ ≤ expiry := by
      rw [← hexpiries, ← ht.size]
      refine ⟨fun hall => hall e.now₁ hreceived, fun hall now hnow => ?_⟩
      rw [hreceived] at hnow
      cases hnow
      exact hall
    rw [hpurged, haccepted, List.length_cons, List.forall_mem_cons]
    constructor
    · rintro (hfew | ⟨-, hold⟩)
      · exact fun _ => .inl hfew
      · exact fun _ => .inr hold
    · intro hroom
      rcases hroom haccepts with hfew | hold
      · exact .inl hfew
      · exact .inr ⟨hnew, hold⟩

theorem kept_init (party : Party) (start : Int) : Kept (machine reprOf ssl party start).init := by
  refine ⟨?_, fun expiry => iff_of_false List.not_mem_nil ?_⟩
  · cases party <;> rfl
  · rintro ⟨n, hn⟩
    cases party <;> cases hn

theorem purged_iff (party : Party) (start : Int) {es : List Call} (hrun : (machine reprOf ssl party start).IsRun es) :
    (machine reprOf ssl party start).Always Purged (machine reprOf ssl party start).init es ↔
      (machine reprOf ssl party start).Guarded (Room reprOf ssl) (machine reprOf ssl party start).init es := by
  have hpurged : Purged (machine reprOf ssl party start).init := fun now hnow => by cases hnow
  exact (machine reprOf ssl party start).always_iff_guarded kept_step (fun hs _ h => purged_step hs h)
    (kept_init party start) hpurged hrun

end Steps

section Flood

def floodDraws (i : Nat) : Draws :=
  ⟨List.replicate 16 1, UInt8.ofNat (i / 256) :: UInt8.ofNat (i % 256) :: List.replicate 14 0, List.replicate 12 3, []⟩

def floodNonce (i : Nat) : Str := b64Encode (floodDraws i).nonce

def floodEnvelope (now : Int) (i : Nat) : CryptoEnvelope :=
  envelopeOf b64Encode now (floodDraws i) .heartbeat (sampleGcm.encrypted (floodDraws i).iv [])
    (signed samplePy.signer b64Encode now (floodDraws i) .heartbeat (sampleGcm.encrypted (floodDraws i).iv []))

def floodCall (now : Int) (i : Nat) : Call :=
  ⟨now, now, .py (dumpsWith .compact (.obj (pyFields (floodEnvelope now i))))⟩

def flood : List Call := (List.range 10000).map (floodCall 0) ++ [floodCall 300001 10000]

def floodMachine : Machine Session Call := machine (fun _ => []) sampleSsl (.py samplePy) 0

theorem floodNonce_injective {i j : Nat} (hi : i < 65536) (hj : j < 65536) (h : floodNonce i = floodNonce j) :
    i = j := by
  have hbytes := List.cons.inj (b64Encode_injective h)
  have hhigh := congrArg UInt8.toNat hbytes.1
  have hlow := congrArg UInt8.toNat (List.cons.inj hbytes.2).1
  simp only [UInt8.toNat_ofNat'] at hhigh hlow
  omega

def floodCodec (g : ReplayGuard Str) : Crypto.CryptoCodec := { samplePy with guard := g }

theorem flood_decrypt {g : ReplayGuard Str} {now : Int} {i : Nat} (hnow : Int64 now)
    (hwindow : g.isWithinWindow now now = true) (hunseen : floodNonce i ∉ g.nonces) :
    decrypt (fun _ => []) sampleSsl (.py (floodCodec g)) (floodCall now i) =
      some (true, .py (floodCodec (g.recordNonce now (floodNonce i)))) := by
  have hdraws : Drawn (floodDraws i) := ⟨rfl, rfl, rfl⟩
  have hopens : Opens sampleGcm (.py (floodCodec g)) := sample_opens.1
  have hdecrypt : (floodCodec g).decrypt (fun _ => []) now now
      (dumpsWith .compact (.obj (pyFields (floodEnvelope now i)))) =
      (.ok { plaintext := [], ok := true }, floodCodec (g.recordNonce now (floodNonce i))) :=
    decrypt_own hopens sample_signs hdraws hnow hwindow hunseen (by decide) .heartbeat
  rw [floodCall, decrypt, hdecrypt]

structure Flooded (k : Nat) (s : Session) (g : ReplayGuard Str) : Prop where
  party : s.party = .py (floodCodec g)
  window : g.windowSeconds = 300
  nonces : ∀ n ∈ g.nonces, ∃ j < k, n = floodNonce j
  clock : s.clock = 0
  accepted : s.accepted = List.replicate k 300000

theorem flooded_unseen {k : Nat} {s : Session} {g : ReplayGuard Str} (hs : Flooded k s g) (hk : k < 65536) :
    floodNonce k ∉ g.nonces := by
  intro hmem
  obtain ⟨j, hj, heq⟩ := hs.nonces _ hmem
  have := floodNonce_injective hk (by omega) heq
  omega

def floodNext (s : Session) (g : ReplayGuard Str) (now : Int) (k : Nat) : Session where
  party := .py (floodCodec (g.recordNonce now (floodNonce k)))
  clock := now
  accepted := (now + 300000) :: s.accepted
  received := some now

theorem flooded_step {k : Nat} {s : Session} {g : ReplayGuard Str} (hs : Flooded k s g) (hk : k < 65536) {now : Int}
    (hlo : 0 ≤ now) (hhi : now < 2 ^ 63) : floodMachine.step s (floodCall now k) = some (floodNext s g now k) := by
  have hwindowMs : g.windowMs = 300000 := by
    rw [Crypto.ReplayGuard.windowMs, hs.window]
    rfl
  have hwindow : g.isWithinWindow now now = true := by
    rw [Crypto.ReplayGuard.isWithinWindow_iff, hwindowMs]
    omega
  have hdecrypt := flood_decrypt ⟨by omega, hhi⟩ hwindow (flooded_unseen hs hk)
  have hclock : s.clock ≤ (floodCall now k).now₁ ∧ (floodCall now k).now₁ ≤ (floodCall now k).now₂ :=
    ⟨hs.clock.symm ▸ hlo, le_refl now⟩
  change step (fun _ => []) sampleSsl s (floodCall now k) = _
  rw [step, if_pos hclock, hs.party, hdecrypt]
  simp only [Option.map_some, if_true, floodNext, Option.some.injEq, Session.mk.injEq, List.cons.injEq, and_true,
    true_and]
  exact ⟨rfl, congrArg (now + ·) hwindowMs, rfl⟩

theorem flooded_run (k : Nat) (hk : k < 65536) : ∃ s g,
    floodMachine.exec floodMachine.init ((List.range k).map (floodCall 0)) = some s ∧ Flooded k s g := by
  induction k with
  | zero => exact ⟨_, .fresh 300, rfl, rfl, rfl, fun n hn => absurd hn (AList.notMem_empty n), rfl, rfl⟩
  | succ k ih =>
      obtain ⟨s, g, hexec, hs⟩ := ih (by omega)
      refine ⟨floodNext s g 0 k, g.recordNonce 0 (floodNonce k), ?_, rfl, hs.window, ?_, rfl, ?_⟩
      · rw [List.range_succ, List.map_append, floodMachine.exec_append, hexec, Option.bind_some]
        exact floodMachine.exec_cons.mpr ⟨_, flooded_step hs (by omega) (le_refl 0) (by omega), rfl⟩
      · intro n hn
        rcases ReplayGuard.mem_recordNonce.mp hn with rfl | hn
        · exact ⟨k, by omega, rfl⟩
        · obtain ⟨j, hj, heq⟩ := hs.nonces n hn
          exact ⟨j, by omega, heq⟩
      · rw [floodNext, hs.accepted]
        rfl

theorem flood_exec : ∃ s, floodMachine.exec floodMachine.init flood = some s ∧ s.received = some 300001 ∧
    s.accepted.length = 10001 ∧ 300000 ∈ s.accepted := by
  obtain ⟨s, g, hexec, hs⟩ := flooded_run 10000 (by omega)
  refine ⟨floodNext s g 300001 10000, ?_, rfl, ?_, ?_⟩
  · rw [flood, floodMachine.exec_append, hexec, Option.bind_some]
    exact floodMachine.exec_cons.mpr ⟨_, flooded_step hs (by omega) (by omega) (by omega), rfl⟩
  · rw [floodNext, hs.accepted, List.length_cons, List.length_replicate]
  · rw [floodNext, hs.accepted]
    exact List.mem_cons_of_mem _ (List.mem_replicate.mpr ⟨by omega, rfl⟩)

theorem flood_isRun : floodMachine.IsRun flood := by
  obtain ⟨s, hs, -⟩ := flood_exec
  exact Option.isSome_iff_exists.mpr ⟨s, hs⟩

theorem not_always_purged {reprOf : Value → Str} {ssl : OpenSsl} {party : Party} {start : Int} {es : List Call}
    {s : Session} (hexec : (machine reprOf ssl party start).exec (machine reprOf ssl party start).init es = some s)
    {now expiry : Int} (hreceived : s.received = some now) (hlength : 10000 < s.accepted.length) (hmem : expiry ∈ s.accepted)
    (hexpired : expiry < now) :
    ¬(machine reprOf ssl party start).Always Purged (machine reprOf ssl party start).init es := by
  intro halways
  have hkept : Kept s := (machine reprOf ssl party start).invariant (kept_init party start) kept_step ⟨es, hexec⟩
  obtain ⟨n, hlook⟩ := (hkept.expiries expiry).mp hmem
  rcases (machine reprOf ssl party start).always_exec halways hexec now hreceived with hfew | hnone
  · rw [hkept.size] at hfew
    omega
  · have hlater := hnone n expiry hlook
    omega

theorem flood_unpurged : floodMachine.IsRun flood ∧ ¬floodMachine.Always Purged floodMachine.init flood := by
  obtain ⟨s, hexec, hreceived, hlength, hmem⟩ := flood_exec
  exact ⟨flood_isRun, not_always_purged hexec hreceived (by omega) hmem (by omega)⟩

theorem purged_iff_flood : floodMachine.Always Purged floodMachine.init flood ↔
    floodMachine.Guarded (Room (fun _ => []) sampleSsl) floodMachine.init flood :=
  purged_iff (.py samplePy) 0 flood_isRun

end Flood

end Agent.NonceCache
