import JdRelay.Base.Runs
import JdRelay.Crypto.Codec

namespace Crypto.Channel
open Text Json Runs CryptoCodec

inductive Role where
  | forwarder
  | agent
  deriving DecidableEq

def Role.peer : Role → Role
  | forwarder => agent
  | agent => forwarder

inductive Party (A : Type) where
  | forwarder
  | agent (a : A)

-- One forwarder key signs in every session; an agent may open several sessions one after the other.
structure World (ι A : Type) where
  reprOf : Value → Str
  cipher : ι → AesGcmCipher
  keys_distinct : Function.Injective fun i => (cipher i).key
  agentOf : ι → A
  ecdsa : Party A → PrivateKey
  windowSeconds : ι → Role → Int

structure Sent (ι : Type) where
  session : ι
  sender : Role
  now : Int
  draws : Draws
  plaintext : Bytes
  type : MessageType
  env : CryptoEnvelope

structure Accepted (ι : Type) where
  session : ι
  receiver : Role
  env : CryptoEnvelope
  plaintext : Bytes

structure Net (ι : Type) where
  guard : ι × Role → ReplayGuard Str
  sent : List (Sent ι)
  accepted : List (Accepted ι)

inductive Event (ι : Type) where
  | encrypt (session : ι) (sender : Role) (now : Int) (draws : Draws) (plaintext : Bytes) (type : MessageType)
  | deliver (session : ι) (receiver : Role) (now₁ now₂ : Int) (jsonStr : Str)

namespace World

variable {ι A : Type} (w : World ι A)

def party (i : ι) : Role → Party A
  | .forwarder => .forwarder
  | .agent => .agent (w.agentOf i)

def codec (s : Net ι) (i : ι) (r : Role) : CryptoCodec where
  cipher := w.cipher i
  signer := ⟨some (w.ecdsa (w.party i r)), none⟩
  verifier := ⟨none, some (w.ecdsa (w.party i r.peer)).publicKey⟩
  guard := s.guard (i, r)

def sealed (m : Sent ι) : EncryptResult := (w.cipher m.session).encrypt m.draws.iv m.plaintext none

def signedBytes (m : Sent ι) : Option Bytes :=
  match m.env.buildSigningPayload w.reprOf with
  | .ok payload => encodeUtf8 payload
  | .error _ => none

def acceptedOf (i : ι) (r : Role) (jsonStr : Str) : Except Python.Error DecryptResult → List (Accepted ι)
  | .error _ => []
  | .ok result =>
      match result.ok, CryptoEnvelope.fromJson jsonStr with
      | true, .ok env => [⟨i, r, env, result.plaintext⟩]
      | _, _ => []

def step [DecidableEq ι] (s : Net ι) : Event ι → Option (Net ι)
  | .encrypt i r now draws plaintext type =>
      match (w.codec s i r).sealEnvelope w.reprOf now draws plaintext type with
      | .error _ => some s
      | .ok env => some { s with sent := ⟨i, r, now, draws, plaintext, type, env⟩ :: s.sent }
  | .deliver i r now₁ now₂ jsonStr =>
      let (result, c) := (w.codec s i r).decrypt w.reprOf now₁ now₂ jsonStr
      some { s with
        guard := Function.update s.guard (i, r) c.guard
        accepted := acceptedOf i r jsonStr result ++ s.accepted }

def machine [DecidableEq ι] : Machine (Net ι) (Event ι) where
  init := { guard := fun p => .fresh (w.windowSeconds p.1 p.2), sent := [], accepted := [] }
  step := w.step

-- Unforgeability is asked of the one signature and the one ciphertext that the call examines.
def Ideal (s : Net ι) : Event ι → Prop
  | .encrypt _ _ _ draws _ _ =>
      draws.nonce ∉ s.sent.map (·.draws.nonce) ∧ draws.iv ∉ s.sent.map (·.draws.iv)
  | .deliver i r _ _ jsonStr => ∀ env, CryptoEnvelope.fromJson jsonStr = .ok env →
      (∀ payload data signature, (w.codec s i r).Signed w.reprOf env payload data signature →
        ∃ m ∈ s.sent, w.party m.session m.sender = w.party i r.peer ∧ w.signedBytes m = some data) ∧
      (∀ ciphertext iv tag plaintext, (w.codec s i r).Opened env ciphertext iv tag plaintext →
        ∃ m ∈ s.sent, (w.cipher m.session).key = (w.cipher i).key ∧ (w.sealed m).ciphertext = ciphertext ∧
          (w.sealed m).iv = iv ∧ (w.sealed m).tag = tag ∧ m.plaintext = plaintext)

end World

structure Agrees {ι : Type} (a : Accepted ι) (m : Sent ι) : Prop where
  session : a.session = m.session
  sender : m.sender = a.receiver.peer
  plaintext : a.plaintext = m.plaintext
  type : a.env.type = .str m.type.value
  msgId : a.env.msgId = m.env.msgId
  timestamp : a.env.timestamp = m.env.timestamp
  nonce : a.env.nonce = m.env.nonce
  typeField : a.env.type = m.env.type
  iv : a.env.iv = m.env.iv
  ciphertext : a.env.ciphertext = m.env.ciphertext
  tag : a.env.tag = m.env.tag

section Payload

variable (reprOf : Value → Str)

def genuineFields (now : Int) (draws : Draws) (type : MessageType) (enc : EncryptResult) : List Str :=
  [generateUuid draws.uuid, Number.intStr now, b64Encode draws.nonce, type.value, b64Encode enc.iv,
    b64Encode enc.ciphertext, b64Encode enc.tag]

theorem bar_notMem_genuineFields (now : Int) (draws : Draws) (type : MessageType) (enc : EncryptResult) :
    ∀ f ∈ genuineFields now draws type enc, bar ∉ f := by
  intro f hf
  simp only [genuineFields, List.mem_cons, List.not_mem_nil, or_false] at hf
  rcases hf with rfl | rfl | rfl | rfl | rfl | rfl | rfl
  · exact bar_notMem_generateUuid _
  · exact bar_notMem_intStr _
  · exact bar_notMem_b64Encode _
  · exact type.bar_notMem_value
  · exact bar_notMem_b64Encode _
  · exact bar_notMem_b64Encode _
  · exact bar_notMem_b64Encode _

theorem payload_metadata (now : Int) (draws : Draws) (type : MessageType) (enc : EncryptResult) (sig : Value) :
    CryptoEnvelope.buildSigningPayload reprOf { metadata now draws type enc with signature := sig } =
      .ok (join bar (genuineFields now draws type enc)) := rfl

-- Edited fields may hold bars of their own; seven fields on both sides still leave one way to cut the payload.
theorem fields_of_payload {env : CryptoEnvelope} {lo hi now : Int} {draws : Draws} {type : MessageType}
    {enc : EncryptResult} {b : Bool} (hw : Python.between lo hi env.timestamp = .ok b)
    (hp : env.buildSigningPayload reprOf = .ok (join bar (genuineFields now draws type enc))) (sig : Value) :
    { env with signature := sig } = { metadata now draws type enc with signature := sig } := by
  obtain ⟨msgId, nonce, ty, iv, ciphertext, tag, h₁, h₂, h₃, h₄, h₅, h₆, he⟩ :=
    CryptoEnvelope.buildSigningPayload_ok hp
  have hfields : [msgId, Python.strOf reprOf env.timestamp, nonce, ty, iv, ciphertext, tag] =
      genuineFields now draws type enc :=
    join_injective rfl (bar_notMem_genuineFields now draws type enc) he.symm
  simp only [genuineFields, List.cons.injEq, and_true] at hfields
  obtain ⟨rfl, hts, rfl, rfl, rfl, rfl, rfl⟩ := hfields
  have ht := Python.strOf_eq_intStr hw hts
  cases env
  simp_all [metadata]

end Payload

section Agreement

variable {ι A : Type} {w : World ι A}

structure Genuine (w : World ι A) (m : Sent ι) : Prop where
  ok : (w.sealed m).ok = true
  env : ∃ signature, m.env = { metadata m.now m.draws m.type (w.sealed m) with signature }

theorem Genuine.signedBytes {m : Sent ι} (hm : Genuine w m) :
    w.signedBytes m = encodeUtf8 (join bar (genuineFields m.now m.draws m.type (w.sealed m))) := by
  obtain ⟨signature, he⟩ := hm.env
  rw [World.signedBytes, he, payload_metadata]

theorem Genuine.iv {m : Sent ι} (hm : Genuine w m) : (w.sealed m).iv = m.draws.iv :=
  AesGcmCipher.encrypt_none_iv hm.ok

theorem party_role {i j : ι} {r q : Role} (h : w.party i r = w.party j q) : r = q := by
  cases r <;> cases q <;> first | rfl | cases h

theorem agrees_of_metadata {a : Accepted ι} {m : Sent ι} (hm : Genuine w m) {signature : Value}
    (h : { a.env with signature } = { metadata m.now m.draws m.type (w.sealed m) with signature })
    (hsession : a.session = m.session) (hsender : m.sender = a.receiver.peer)
    (hplaintext : a.plaintext = m.plaintext) : Agrees a m := by
  obtain ⟨sig, he⟩ := hm.env
  obtain ⟨i, r, ⟨⟩, p⟩ := a
  simp only [CryptoEnvelope.mk.injEq, and_true] at h
  obtain ⟨h₁, h₂, h₃, h₄, h₅, h₆, h₇⟩ := h
  exact ⟨hsession, hsender, hplaintext, h₄, by rw [he]; exact h₁, by rw [he]; exact h₂, by rw [he]; exact h₃,
    by rw [he]; exact h₄, by rw [he]; exact h₅, by rw [he]; exact h₆, by rw [he]; exact h₇⟩

-- The signature names the seven fields, the iv among them names the encrypt call, and the key its session.
theorem origin_of_validate {s : Net ι} {i : ι} {r : Role} {now₁ now₂ : Int} {jsonStr : Str}
    {env : CryptoEnvelope} {plaintext : Bytes} (hgenuine : ∀ m ∈ s.sent, Genuine w m)
    (hivs : (s.sent.map (·.draws.iv)).Nodup) (hideal : w.Ideal s (.deliver i r now₁ now₂ jsonStr))
    (h : (w.codec s i r).validate w.reprOf now₁ jsonStr = .ok (env, plaintext)) :
    ∃ m ∈ s.sent, Agrees ⟨i, r, env, plaintext⟩ m := by
  obtain ⟨hj, hfresh, ⟨payload, data, signature, hsigned⟩, ciphertext, iv, tag, hopened⟩ :=
    validate_ok w.reprOf h
  obtain ⟨hauth, haead⟩ := hideal env hj
  obtain ⟨m, hm, hparty, hbytes⟩ := hauth payload data signature hsigned
  obtain ⟨m', hm', hkey, -, hiv, -, hplain⟩ := haead ciphertext iv tag plaintext hopened
  rw [(hgenuine m hm).signedBytes] at hbytes
  have hpayload := hsigned.built
  rw [encode_injective hsigned.encoded hbytes] at hpayload
  have hfields := fields_of_payload w.reprOf hfresh.inWindow hpayload env.signature
  have hivField : env.iv = .str (b64Encode (w.sealed m).iv) := congrArg CryptoEnvelope.iv hfields
  have hivs' : m.draws.iv = m'.draws.iv := by
    obtain ⟨text, htext, hdecode⟩ := b64Field_ok.mp hopened.ivField
    rw [hivField, Value.str.injEq] at htext
    rw [← htext, b64Decode_b64Encode, Option.some.injEq] at hdecode
    rw [← (hgenuine m hm).iv, ← (hgenuine m' hm').iv, hdecode, hiv]
  obtain rfl : m = m' := List.inj_on_of_nodup_map hivs hm hm' hivs'
  have hsession : m.session = i := w.keys_distinct hkey
  exact ⟨m, hm, agrees_of_metadata (hgenuine m hm) hfields hsession.symm (party_role hparty) hplain.symm⟩

theorem Genuine.opened {s : Net ι} {m : Sent ι} {r : Role} {env : CryptoEnvelope} {ciphertext iv tag plaintext : Bytes}
    (hm : Genuine w m)
    (hcorrect : (((w.cipher m.session).decrypt (w.sealed m).ciphertext (w.sealed m).iv (w.sealed m).tag)).plaintext =
      m.plaintext)
    (hfields : env.ciphertext = m.env.ciphertext ∧ env.iv = m.env.iv ∧ env.tag = m.env.tag)
    (h : (w.codec s m.session r).Opened env ciphertext iv tag plaintext) :
    (w.sealed m).ciphertext = ciphertext ∧ (w.sealed m).iv = iv ∧ (w.sealed m).tag = tag ∧ m.plaintext = plaintext := by
  obtain ⟨signature, he⟩ := hm.env
  obtain ⟨hct, hiv, htag, -, hresult⟩ := h
  simp only [hfields, he, metadata, b64Field, b64Decode_b64Encode, Except.ok.injEq] at hct hiv htag
  refine ⟨hct, hiv, htag, ?_⟩
  rw [← hcorrect, hct, hiv, htag]
  exact hresult

theorem ideal_of_unchanged {s : Net ι} {m : Sent ι} {r : Role} {now₁ now₂ : Int} {jsonStr : Str}
    (hm : m ∈ s.sent) (hgenuine : Genuine w m) (hr : m.sender = r.peer)
    (hj : CryptoEnvelope.fromJson jsonStr = .ok m.env)
    (hcorrect : (((w.cipher m.session).decrypt (w.sealed m).ciphertext (w.sealed m).iv (w.sealed m).tag)).plaintext =
      m.plaintext) : w.Ideal s (.deliver m.session r now₁ now₂ jsonStr) := by
  intro env henv
  obtain rfl : m.env = env := Except.ok.inj (hj.symm.trans henv)
  constructor
  · intro payload data signature h
    exact ⟨m, hm, by rw [hr], by simp only [World.signedBytes, h.built, h.encoded]⟩
  · intro ciphertext iv tag plaintext h
    exact ⟨m, hm, rfl, hgenuine.opened hcorrect ⟨rfl, rfl, rfl⟩ h⟩

structure Inv (w : World ι A) (s : Net ι) : Prop where
  genuine : ∀ m ∈ s.sent, Genuine w m
  ivs : (s.sent.map (·.draws.iv)).Nodup
  origin : ∀ a ∈ s.accepted, ∃ m ∈ s.sent, Agrees a m
  recorded : ∀ a ∈ s.accepted, ∀ n, a.env.nonce = .str n → n ∈ (s.guard (a.session, a.receiver)).nonces
  once : s.accepted.Pairwise fun a b => a.session = b.session → a.receiver = b.receiver → a.env.nonce ≠ b.env.nonce

theorem Inv.injective {s : Net ι} (hs : Inv w s) :
    ∃ origin : Fin s.accepted.length → Fin s.sent.length, Function.Injective origin ∧
      ∀ k, Agrees s.accepted[k] s.sent[origin k] := by
  have hex : ∀ k : Fin s.accepted.length, ∃ o : Fin s.sent.length, Agrees s.accepted[k] s.sent[o] := by
    intro k
    obtain ⟨m, hm, ha⟩ := hs.origin _ (s.accepted.get_mem k)
    obtain ⟨o, rfl⟩ := List.get_of_mem hm
    exact ⟨o, ha⟩
  choose origin hagrees using hex
  refine ⟨origin, fun k l hkl => ?_, hagrees⟩
  have hk := hagrees k
  have hl := hagrees l
  rw [← hkl] at hl
  have hrole : s.accepted[k].receiver = s.accepted[l].receiver := by
    have hpeer := hk.sender.symm.trans hl.sender
    revert hpeer
    cases s.accepted[k].receiver <;> cases s.accepted[l].receiver <;> simp [Role.peer]
  have hsession := hk.session.trans hl.session.symm
  have hnonce := hk.nonce.trans hl.nonce.symm
  by_contra hne
  rcases lt_or_gt_of_ne hne with hlt | hlt
  · exact List.pairwise_iff_get.mp hs.once k l hlt hsession hrole hnonce
  · exact List.pairwise_iff_get.mp hs.once l k hlt hsession.symm hrole.symm hnonce.symm

theorem inv_init [DecidableEq ι] : Inv w w.machine.init where
  genuine := by simp [World.machine]
  ivs := by simp [World.machine]
  origin := by simp [World.machine]
  recorded := by simp [World.machine]
  once := by simp [World.machine]

theorem inv_encrypt [DecidableEq ι] {s t : Net ι} {i : ι} {r : Role} {now : Int} {draws : Draws} {plaintext : Bytes}
    {type : MessageType} (hs : Inv w s) (hideal : w.Ideal s (.encrypt i r now draws plaintext type))
    (h : w.step s (.encrypt i r now draws plaintext type) = some t) : Inv w t := by
  simp only [World.step] at h
  split at h
  · cases h; exact hs
  · rename_i env henv
    cases h
    obtain ⟨hok, signature, he⟩ := sealEnvelope_ok w.reprOf henv
    exact {
      genuine := by
        intro m hm
        rcases List.mem_cons.mp hm with rfl | hm
        · exact ⟨hok, _, he⟩
        · exact hs.genuine m hm
      ivs := List.nodup_cons.mpr ⟨hideal.2, hs.ivs⟩
      origin := fun a ha => (hs.origin a ha).imp fun m hm => ⟨List.mem_cons_of_mem _ hm.1, hm.2⟩
      recorded := hs.recorded
      once := hs.once }

theorem decrypt_cases (w : World ι A) (s : Net ι) (i : ι) (r : Role) (now₁ now₂ : Int) (jsonStr : Str) :
    (∃ result, (w.codec s i r).decrypt w.reprOf now₁ now₂ jsonStr = (result, w.codec s i r) ∧
      World.acceptedOf i r jsonStr result = []) ∨
    ∃ env plaintext n, (w.codec s i r).validate w.reprOf now₁ jsonStr = .ok (env, plaintext) ∧
      env.nonce = .str n ∧
      (w.codec s i r).decrypt w.reprOf now₁ now₂ jsonStr =
        (.ok { plaintext, ok := true }, (w.codec s i r).recordNonce now₂ (.str n)) ∧
      World.acceptedOf i r jsonStr (.ok { plaintext, ok := true }) = [⟨i, r, env, plaintext⟩] := by
  simp only [decrypt]
  cases hv : (w.codec s i r).validate w.reprOf now₁ jsonStr with
  | error e =>
      cases e with
      | raised e => exact .inl ⟨_, rfl, rfl⟩
      | rejected e => exact .inl ⟨_, rfl, rfl⟩
  | ok v =>
      obtain ⟨env, plaintext⟩ := v
      obtain ⟨hj, -, ⟨payload, data, signature, hsigned⟩, -⟩ := validate_ok w.reprOf hv
      obtain ⟨_, n, _, _, _, _, _, hn, _⟩ := CryptoEnvelope.buildSigningPayload_ok hsigned.built
      exact .inr ⟨env, plaintext, n, rfl, hn, by simp only [hn], by simp only [World.acceptedOf, hj]⟩

def Net.accept [DecidableEq ι] (s : Net ι) (a : Accepted ι) (now : Int) (n : Str) : Net ι :=
  { s with
    guard := Function.update s.guard (a.session, a.receiver) ((s.guard (a.session, a.receiver)).recordNonce now n)
    accepted := a :: s.accepted }

variable [DecidableEq ι]

theorem step_deliver {s t : Net ι} {i : ι} {r : Role} {now₁ now₂ : Int} {jsonStr : Str}
    (h : w.step s (.deliver i r now₁ now₂ jsonStr) = some t) :
    t = s ∨ ∃ env plaintext n, (w.codec s i r).validate w.reprOf now₁ jsonStr = .ok (env, plaintext) ∧
      env.nonce = .str n ∧ t = s.accept ⟨i, r, env, plaintext⟩ now₂ n := by
  simp only [World.step] at h
  rcases decrypt_cases w s i r now₁ now₂ jsonStr with
    ⟨result, hd, hnone⟩ | ⟨env, plaintext, n, hv, hn, hd, hone⟩
  · rw [hd, hnone] at h
    have hg : Function.update s.guard (i, r) (w.codec s i r).guard = s.guard := Function.update_eq_self _ _
    simp only [hg, List.nil_append, Option.some.injEq] at h
    exact .inl h.symm
  · rw [hd, hone] at h
    exact .inr ⟨env, plaintext, n, hv, hn, (Option.some.inj h).symm⟩

theorem step_refused {s : Net ι} {i : ι} {r : Role} {now₁ now₂ : Int} {jsonStr : Str}
    (h : ∀ v, (w.codec s i r).validate w.reprOf now₁ jsonStr ≠ .ok v) :
    w.step s (.deliver i r now₁ now₂ jsonStr) = some s := by
  obtain ⟨t, ht⟩ : ∃ t, w.step s (.deliver i r now₁ now₂ jsonStr) = some t := ⟨_, rfl⟩
  obtain rfl | ⟨env, plaintext, n, hvalid, -⟩ := step_deliver ht
  · exact ht
  · exact absurd hvalid (h _)

theorem mem_accept_self (s : Net ι) (a : Accepted ι) (now : Int) (n : Str) :
    n ∈ ((s.accept a now n).guard (a.session, a.receiver)).nonces := by
  simp only [Net.accept, Function.update_self]
  exact ReplayGuard.mem_recordNonce.mpr (.inl rfl)

theorem mem_accept {s : Net ι} {p : ι × Role} {m : Str} (a : Accepted ι) (now : Int) (n : Str)
    (h : m ∈ (s.guard p).nonces) : m ∈ ((s.accept a now n).guard p).nonces := by
  by_cases hp : p = (a.session, a.receiver)
  · subst hp
    simp only [Net.accept, Function.update_self]
    exact ReplayGuard.mem_recordNonce.mpr (.inr h)
  · simpa only [Net.accept, Function.update_of_ne hp] using h

theorem inv_accept {s : Net ι} {a : Accepted ι} {now : Int} {n : Str} (hs : Inv w s)
    (horigin : ∃ m ∈ s.sent, Agrees a m) (hn : a.env.nonce = .str n)
    (hunseen : n ∉ (s.guard (a.session, a.receiver)).nonces) : Inv w (s.accept a now n) where
  genuine := hs.genuine
  ivs := hs.ivs
  origin := by
    intro b hb
    rcases List.mem_cons.mp hb with rfl | hb
    · exact horigin
    · exact hs.origin b hb
  recorded := by
    intro b hb m hm
    rcases List.mem_cons.mp hb with rfl | hb
    · obtain rfl : n = m := Value.str.inj (hn.symm.trans hm)
      exact mem_accept_self s b now n
    · exact mem_accept a now n (hs.recorded b hb m hm)
  once := by
    refine List.pairwise_cons.mpr ⟨fun b hb hi hr hnonce => ?_, hs.once⟩
    have hb' := hs.recorded b hb n (hnonce.symm.trans hn)
    rw [← hi, ← hr] at hb'
    exact hunseen hb'

theorem inv_deliver {s t : Net ι} {i : ι} {r : Role} {now₁ now₂ : Int} {jsonStr : Str} (hs : Inv w s)
    (hideal : w.Ideal s (.deliver i r now₁ now₂ jsonStr))
    (h : w.step s (.deliver i r now₁ now₂ jsonStr) = some t) : Inv w t := by
  obtain rfl | ⟨env, plaintext, n, hv, hn, rfl⟩ := step_deliver h
  · exact hs
  · have hfresh := (validate_ok w.reprOf hv).2.1
    exact inv_accept hs (origin_of_validate hs.genuine hs.ivs hideal hv) hn (hfresh.unseen n hn)

theorem inv_step {s t : Net ι} {e : Event ι} (hs : Inv w s) (hideal : w.Ideal s e)
    (h : w.step s e = some t) : Inv w t := by
  cases e with
  | encrypt i r now draws plaintext type => exact inv_encrypt hs hideal h
  | deliver i r now₁ now₂ jsonStr => exact inv_deliver hs hideal h

theorem injective_agreement (w : World ι A) {es : List (Event ι)} {s : Net ι}
    (hideal : w.machine.Guarded w.Ideal w.machine.init es) (hrun : w.machine.exec w.machine.init es = some s) :
    ∃ origin : Fin s.accepted.length → Fin s.sent.length, Function.Injective origin ∧
      ∀ k, Agrees s.accepted[k] s.sent[origin k] :=
  (w.machine.invariant_of_guarded inv_step inv_init hideal hrun).injective

end Agreement

section Heartbeat

def sampleIv : Bytes := [0, 1, 2, 3, 4, 5, 6, 7, 8, 9, 10, 11]

def sampleText : Bytes := [123, 125]

-- AES-256-GCM of {} under the key 00 01 … 1f and the iv above.
def sampleSealed : Bytes :=
  [60, 127, 149, 223, 134, 146, 13, 61, 96, 1, 207, 169, 121, 180, 176, 181, 217, 218]

def sampleAead : Aead where
  encrypt iv plaintext := if iv = sampleIv ∧ plaintext = sampleText then .ok sampleSealed else .error []
  decrypt iv ctWithTag := if iv = sampleIv ∧ ctWithTag = sampleSealed then .ok sampleText else .error []

def sampleCipher : AesGcmCipher where
  key := (List.range 32).map UInt8.ofNat
  aead := sampleAead
  key_size := rfl

-- A P-256 signature in DER over the payload of the heartbeat below.
def sampleSignature : Bytes :=
  [48, 68, 2, 32, 45, 218, 248, 64, 128, 44, 231, 10, 124, 222, 140, 18, 54, 8, 155, 116, 234, 36, 89, 215, 7, 192,
    221, 60, 253, 91, 197, 161, 216, 152, 135, 116, 2, 32, 74, 23, 251, 73, 176, 174, 182, 24, 223, 2, 125, 220, 189,
    52, 186, 71, 102, 242, 90, 61, 110, 107, 76, 198, 41, 90, 123, 53, 110, 241, 178, 51]

def sampleEnv : CryptoEnvelope where
  msgId := .str (str "00000000-0000-4000-8000-000000000000")
  timestamp := .int 1000
  nonce := .str (str "AAAAAAAAAAAAAAAAAAAAAA==\n")
  type := .str (str "HEARTBEAT")
  iv := .str (str "AAECAwQFBgcICQoL\n")
  ciphertext := .str (str "PH8=\n")
  tag := .str (str "ld+Gkg09YAHPqXm0sLXZ2g==\n")
  signature := .str (b64Encode sampleSignature)

def sampleData : Bytes := ((sampleEnv.buildSigningPayload fun _ => []).toOption.bind encodeUtf8).getD []

def sampleKey : PrivateKey where
  sign _ _ := sampleSignature
  publicKey := ⟨fun signature data => signature == sampleSignature && data == sampleData⟩

def sampleWorld : World Unit Unit where
  reprOf _ := []
  cipher _ := sampleCipher
  keys_distinct := fun _ _ _ => rfl
  agentOf _ := ()
  ecdsa _ := sampleKey
  windowSeconds _ _ := 300

def sampleDraws : Draws where
  uuid := List.replicate 16 0
  nonce := List.replicate 16 0
  iv := sampleIv
  entropy := []

def sampleSent : Sent Unit := ⟨(), .forwarder, 1000, sampleDraws, sampleText, .heartbeat, sampleEnv⟩

def editedEnv : CryptoEnvelope := { sampleEnv with type := .str (str "BUILD_TRIGGER") }

-- The edited text, the genuine one and the genuine one again.
def sampleRun : List (Event Unit) :=
  [.encrypt () .forwarder 1000 sampleDraws sampleText .heartbeat,
    .deliver () .agent 1100 1101 editedEnv.toJson,
    .deliver () .agent 1200 1201 sampleEnv.toJson,
    .deliver () .agent 1300 1301 sampleEnv.toJson]

def sampleNet : Net Unit where
  guard := sampleWorld.machine.init.guard
  sent := [sampleSent]
  accepted := []

def sampleAccepted : Accepted Unit := ⟨(), .agent, sampleEnv, sampleText⟩

def acceptedNet : Net Unit := sampleNet.accept sampleAccepted 1201 (str "AAAAAAAAAAAAAAAAAAAAAA==\n")

-- What the codecs make of the three texts.
theorem sample_read :
    (sampleWorld.codec sampleWorld.machine.init () .forwarder).sealEnvelope sampleWorld.reprOf 1000 sampleDraws sampleText
        .heartbeat = .ok sampleEnv ∧
      CryptoEnvelope.fromJson sampleEnv.toJson = .ok sampleEnv ∧
      CryptoEnvelope.fromJson editedEnv.toJson = .ok editedEnv ∧
      (sampleWorld.codec sampleNet () .agent).validate sampleWorld.reprOf 1200 sampleEnv.toJson =
        .ok (sampleEnv, sampleText) ∧
      ((sampleWorld.codec sampleNet () .agent).validate sampleWorld.reprOf 1100 editedEnv.toJson).toOption = none ∧
      ((sampleWorld.codec acceptedNet () .agent).validate sampleWorld.reprOf 1300 sampleEnv.toJson).toOption = none ∧
      ((editedEnv.buildSigningPayload sampleWorld.reprOf).toOption.bind encodeUtf8) ≠ some sampleData := by
  decide +kernel

theorem sample_sealed :
    (sampleWorld.sealed sampleSent).ok = true ∧
      sampleEnv = { metadata 1000 sampleDraws .heartbeat (sampleWorld.sealed sampleSent) with
        signature := .str (b64Encode sampleSignature) } ∧
      (sampleCipher.decrypt (sampleWorld.sealed sampleSent).ciphertext (sampleWorld.sealed sampleSent).iv
        (sampleWorld.sealed sampleSent).tag).plaintext = sampleText := by
  decide +kernel

theorem sample_encrypt : sampleWorld.step sampleWorld.machine.init
    (.encrypt () .forwarder 1000 sampleDraws sampleText .heartbeat) = some sampleNet := by
  simp only [World.step, sample_read.1]
  rfl

theorem sample_deliver : sampleWorld.step sampleNet (.deliver () .agent 1200 1201 sampleEnv.toJson) =
    some acceptedNet := by
  obtain ⟨-, hjson, -, hvalid, -⟩ := sample_read
  simp only [World.step, CryptoCodec.decrypt, hvalid, World.acceptedOf, hjson]
  rfl

theorem refused_of_toOption {s : Net Unit} {now₁ now₂ : Int} {text : Str}
    (h : ((sampleWorld.codec s () .agent).validate sampleWorld.reprOf now₁ text).toOption = none) :
    sampleWorld.step s (.deliver () .agent now₁ now₂ text) = some s :=
  step_refused fun v hv => by rw [hv] at h; cases h

theorem edited_deliver : sampleWorld.step sampleNet (.deliver () .agent 1100 1101 editedEnv.toJson) = some sampleNet :=
  refused_of_toOption sample_read.2.2.2.2.1

theorem replayed_deliver :
    sampleWorld.step acceptedNet (.deliver () .agent 1300 1301 sampleEnv.toJson) = some acceptedNet :=
  refused_of_toOption sample_read.2.2.2.2.2.1

theorem sample_genuine : Genuine sampleWorld sampleSent := ⟨sample_sealed.1, .str (b64Encode sampleSignature), sample_sealed.2.1⟩

theorem sample_ideal {s : Net Unit} (h : sampleSent ∈ s.sent) (now₁ now₂ : Int) :
    sampleWorld.Ideal s (.deliver () .agent now₁ now₂ sampleEnv.toJson) :=
  ideal_of_unchanged h sample_genuine rfl sample_read.2.1 sample_sealed.2.2

theorem edited_ideal {s : Net Unit} (h : sampleSent ∈ s.sent) (now₁ now₂ : Int) :
    sampleWorld.Ideal s (.deliver () .agent now₁ now₂ editedEnv.toJson) := by
  intro env henv
  obtain ⟨-, -, hjson, -, -, -, hother⟩ := sample_read
  obtain rfl : editedEnv = env := Except.ok.inj (hjson.symm.trans henv)
  constructor
  · intro payload data signature hsigned
    have hverified : (signature == sampleSignature && data == sampleData) = true := hsigned.verified
    obtain rfl : data = sampleData := eq_of_beq (Bool.and_eq_true_iff.mp hverified).2
    refine absurd ?_ hother
    rw [hsigned.built]
    exact hsigned.encoded
  · intro ciphertext iv tag plaintext hopened
    have hfields : editedEnv.ciphertext = sampleEnv.ciphertext ∧ editedEnv.iv = sampleEnv.iv ∧
        editedEnv.tag = sampleEnv.tag := ⟨rfl, rfl, rfl⟩
    exact ⟨sampleSent, h, rfl, sample_genuine.opened sample_sealed.2.2 hfields hopened⟩

theorem sample_guarded : sampleWorld.machine.Guarded sampleWorld.Ideal sampleWorld.machine.init sampleRun := by
  refine ⟨⟨List.not_mem_nil, List.not_mem_nil⟩, fun s hs => ?_⟩
  obtain rfl : sampleNet = s := Option.some.inj (sample_encrypt.symm.trans hs)
  refine ⟨edited_ideal List.mem_cons_self _ _, fun s hs => ?_⟩
  obtain rfl : sampleNet = s := Option.some.inj (edited_deliver.symm.trans hs)
  refine ⟨sample_ideal List.mem_cons_self _ _, fun s hs => ?_⟩
  obtain rfl : acceptedNet = s := Option.some.inj (sample_deliver.symm.trans hs)
  exact ⟨sample_ideal List.mem_cons_self _ _, fun _ _ => trivial⟩

theorem injective_agreement_heartbeat :
    ∃ s : Net Unit, sampleWorld.machine.exec sampleWorld.machine.init sampleRun = some s ∧ s.accepted.length = 1 ∧
      ∃ origin : Fin s.accepted.length → Fin s.sent.length, Function.Injective origin ∧
        ∀ k, Agrees s.accepted[k] s.sent[origin k] := by
  have hrun : sampleWorld.machine.exec sampleWorld.machine.init sampleRun = some acceptedNet :=
    (Machine.exec_cons _).mpr ⟨_, sample_encrypt, (Machine.exec_cons _).mpr ⟨_, edited_deliver,
      (Machine.exec_cons _).mpr ⟨_, sample_deliver, (Machine.exec_cons _).mpr ⟨_, replayed_deliver, rfl⟩⟩⟩⟩
  exact ⟨_, hrun, rfl, injective_agreement sampleWorld sample_guarded hrun⟩

end Heartbeat

end Crypto.Channel
