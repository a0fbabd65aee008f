import JdRelay.Base.RoundTrip
import JdRelay.Ws.IoLoop

namespace Ws.DecryptReports
open Text Json Crypto CryptoCodec
open IoLoop (forwarderTake)

section Stages

def Reported {A : Type} (x : Except Refusal A) : Prop := ∀ e, x ≠ .error (.raised e)

variable {A B : Type}

theorem reported_bind {x : Except Refusal A} {f : A → Except Refusal B} :
    Reported (x >>= f) ↔ Reported x ∧ ∀ a, x = .ok a → Reported (f a) := by
  cases x with
  | error refusal =>
      have herror : (Except.error refusal >>= f) = .error refusal := rfl
      rw [herror]
      constructor
      · exact fun h => ⟨fun e he => h e (by cases he; rfl), nofun⟩
      · exact fun h e he => h.1 e (by cases he; rfl)
  | ok a =>
      constructor
      · intro h
        exact ⟨nofun, fun a' ha => Except.ok.inj ha ▸ h⟩
      · exact fun h => h.2 a rfl

theorem reported_lift {x : Except Python.Error A} : Reported (lift x) ↔ ∃ a, x = .ok a := by
  cases x with
  | error e => exact ⟨fun h => absurd rfl (h e), nofun⟩
  | ok a => exact ⟨fun _ => ⟨a, rfl⟩, fun _ => nofun⟩

theorem reported_require (b : Bool) (r : Rejection) : Reported (require b r) := by
  cases b with
  | false => exact fun e h => by cases h
  | true => exact nofun

theorem reported_ok (a : A) : Reported (.ok a) := nofun

end Stages

section Condition

def Numeric : Value → Prop
  | .int _ => True
  | .bool _ => True
  | .float _ => True
  | _ => False

def Hashable : Value → Prop
  | .arr _ => False
  | .obj _ => False
  | _ => True

def IsText (v : Value) : Prop := ∃ s, v = .str s ∧ Scalar s

def IsBase64 (v : Value) : Prop := ∃ s, v = .str s ∧ (b64Decode s).isSome

def signedFields (env : CryptoEnvelope) : List Value :=
  [env.msgId, env.nonce, env.type, env.iv, env.ciphertext, env.tag]

variable (reprOf : Value → Str) (c : CryptoCodec) (now : Int) (env : CryptoEnvelope)

structure Openable : Prop where
  ciphertext : IsBase64 env.ciphertext
  iv : IsBase64 env.iv
  tag : IsBase64 env.tag

structure Signable : Prop where
  texts : ∀ v ∈ signedFields env, IsText v
  signature : IsBase64 env.signature

def Verifies : Prop := ∃ payload data signature, c.Signed reprOf env payload data signature

structure Readable : Prop where
  timestamp : Numeric env.timestamp
  nonce : within c.guard now env.timestamp = .ok true → Hashable env.nonce
  signable : within c.guard now env.timestamp = .ok true → seen c.guard env.nonce = .ok false → Signable env
  openable : within c.guard now env.timestamp = .ok true → seen c.guard env.nonce = .ok false →
    Verifies reprOf c env → Openable env

def ReadableText (jsonStr : Str) : Prop :=
  ∃ fields, loads jsonStr = some (.obj fields) ∧ Readable reprOf c now (CryptoEnvelope.ofFields fields)

end Condition

section Exact

variable {reprOf : Value → Str} {c : CryptoCodec} {now : Int} {env : CryptoEnvelope}

theorem within_ok_iff {v : Value} : (∃ b, within c.guard now v = .ok b) ↔ Numeric v := by
  cases v <;> simp [within, Python.between, Numeric]

theorem seen_ok_iff {v : Value} : (∃ b, seen c.guard v = .ok b) ↔ Hashable v := by
  cases v <;> simp [seen, Hashable]

theorem b64Field_ok_iff {v : Value} : (∃ b, b64Field v = .ok b) ↔ IsBase64 v := by
  simp only [b64Field_ok, IsBase64, Option.isSome_iff_exists]
  constructor
  · rintro ⟨b, s, hs, hb⟩
    exact ⟨s, hs, b, hb⟩
  · rintro ⟨s, hs, b, hb⟩
    exact ⟨b, s, hs, hb⟩

theorem scalar_number {v : Value} (h : Numeric v) : Scalar (Python.strOf reprOf v) := by
  cases v with
  | int n => exact Number.scalar_intStr n
  | bool b => cases b <;> exact scalar_str _
  | float x => exact scalar_map x.reprChars
  | null => exact h.elim
  | str s => exact h.elim
  | arr items => exact h.elim
  | obj fields => exact h.elim

theorem scalar_bar : Scalar [bar] := by decide

theorem signable_iff (h : Numeric env.timestamp) :
    (∃ payload data, env.buildSigningPayload reprOf = .ok payload ∧ encodeUtf8 payload = some data) ↔
      ∀ v ∈ signedFields env, IsText v := by
  constructor
  · rintro ⟨payload, data, hbuilt, hdata⟩
    obtain ⟨msgId, nonce, type, iv, ciphertext, tag, h₁, h₂, h₃, h₄, h₅, h₆, rfl⟩ :=
      CryptoEnvelope.buildSigningPayload_ok hbuilt
    have hscalar := (scalar_join_iff scalar_bar).mp (scalar_iff.mp (Option.isSome_of_eq_some hdata))
    simp only [List.forall_mem_cons] at hscalar
    obtain ⟨s₁, -, s₂, s₃, s₄, s₅, s₆, -⟩ := hscalar
    simp only [signedFields, List.forall_mem_cons, h₁, h₂, h₃, h₄, h₅, h₆]
    exact ⟨⟨_, rfl, s₁⟩, ⟨_, rfl, s₂⟩, ⟨_, rfl, s₃⟩, ⟨_, rfl, s₄⟩, ⟨_, rfl, s₅⟩, ⟨_, rfl, s₆⟩, List.forall_mem_nil _⟩
  · intro htexts
    simp only [signedFields, List.forall_mem_cons] at htexts
    obtain ⟨⟨msgId, h₁, s₁⟩, ⟨nonce, h₂, s₂⟩, ⟨type, h₃, s₃⟩, ⟨iv, h₄, s₄⟩, ⟨ciphertext, h₅, s₅⟩, ⟨tag, h₆, s₆⟩, -⟩ :=
      htexts
    have hbuilt : env.buildSigningPayload reprOf = .ok
        (join bar [msgId, Python.strOf reprOf env.timestamp, nonce, type, iv, ciphertext, tag]) := by
      rw [CryptoEnvelope.buildSigningPayload, h₁, h₂, h₃, h₄, h₅, h₆]
      rfl
    have hscalar : Scalar (join bar [msgId, Python.strOf reprOf env.timestamp, nonce, type, iv, ciphertext, tag]) := by
      refine scalar_join scalar_bar ?_
      simp only [List.forall_mem_cons]
      exact ⟨s₁, scalar_number h, s₂, s₃, s₄, s₅, s₆, List.forall_mem_nil _⟩
    obtain ⟨data, hdata⟩ := Option.isSome_iff_exists.mp (scalar_iff.mpr hscalar)
    exact ⟨_, data, hbuilt, hdata⟩

theorem reported_checkFresh : Reported (c.checkFresh now env) ↔
    Numeric env.timestamp ∧ (within c.guard now env.timestamp = .ok true → Hashable env.nonce) := by
  rw [checkFresh, reported_bind, reported_lift, within_ok_iff]
  simp only [reported_bind, reported_lift, reported_require, lift_ok, require_ok, seen_ok_iff, true_and,
    and_true, implies_true]
  refine and_congr_right fun _ => ⟨fun h hin => h true hin () rfl, ?_⟩
  rintro h _ hin ⟨⟩ rfl
  exact h hin

theorem checkFresh_ok_iff {u : Unit} : c.checkFresh now env = .ok u ↔
    within c.guard now env.timestamp = .ok true ∧ seen c.guard env.nonce = .ok false := by
  simp only [checkFresh, Python.bind_ok, lift_ok, require_ok, Bool.not_eq_true']
  constructor
  · rintro ⟨_, hin, _, rfl, _, hseen, rfl⟩
    exact ⟨hin, hseen⟩
  · rintro ⟨hin, hseen⟩
    exact ⟨true, hin, (), rfl, false, hseen, rfl⟩

theorem reported_checkSignature (h : Numeric env.timestamp) : Reported (c.checkSignature reprOf env) ↔ Signable env := by
  simp only [checkSignature, reported_bind, reported_lift, reported_require, lift_ok, and_true, implies_true,
    b64Field_ok_iff, utf8_ok]
  constructor
  · rintro ⟨⟨payload, hbuilt⟩, hrest⟩
    obtain ⟨hsignature, hdata⟩ := hrest payload hbuilt
    obtain ⟨signature, hsome⟩ := b64Field_ok_iff.mpr hsignature
    obtain ⟨data, hdata⟩ := hdata signature hsome
    exact ⟨(signable_iff h).mp ⟨payload, data, hbuilt, hdata⟩, hsignature⟩
  · rintro ⟨htexts, hsignature⟩
    obtain ⟨payload, data, hbuilt, hdata⟩ : ∃ payload data, env.buildSigningPayload reprOf = .ok payload ∧
        encodeUtf8 payload = some data := (signable_iff h).mpr htexts
    refine ⟨⟨payload, hbuilt⟩, fun payload' hbuilt' => ⟨hsignature, fun _ _ => ⟨data, ?_⟩⟩⟩
    rw [hbuilt] at hbuilt'
    cases hbuilt'
    exact hdata

theorem checkSignature_ok_iff {u : Unit} : c.checkSignature reprOf env = .ok u ↔ Verifies reprOf c env := by
  constructor
  · exact checkSignature_ok reprOf
  · rintro ⟨payload, data, signature, hsigned⟩
    simp only [checkSignature, Python.bind_ok, lift_ok, require_ok, utf8_ok]
    exact ⟨payload, hsigned.built, signature, hsigned.decoded, data, hsigned.encoded, hsigned.verified⟩

theorem reported_openCiphertext : Reported (c.openCiphertext env) ↔ Openable env := by
  simp only [openCiphertext, reported_bind, reported_lift, reported_require, reported_ok, lift_ok, and_true,
    implies_true, b64Field_ok_iff]
  constructor
  · rintro ⟨hciphertext, hrest⟩
    obtain ⟨ciphertext, hc⟩ := b64Field_ok_iff.mpr hciphertext
    obtain ⟨hiv, htag⟩ := hrest ciphertext hc
    obtain ⟨iv, hi⟩ := b64Field_ok_iff.mpr hiv
    exact ⟨hciphertext, hiv, htag iv hi⟩
  · exact fun h => ⟨h.ciphertext, fun _ _ => ⟨h.iv, fun _ _ => h.tag⟩⟩

theorem reported_validate {jsonStr : Str} :
    Reported (c.validate reprOf now jsonStr) ↔ ReadableText reprOf c now jsonStr := by
  have hfields : ∀ {env}, CryptoEnvelope.fromJson jsonStr = .ok env ↔
      ∃ fields, loads jsonStr = some (.obj fields) ∧ CryptoEnvelope.ofFields fields = env := fun {env} => by
    unfold CryptoEnvelope.fromJson
    split
    · rename_i hloads
      simp [hloads]
    · rename_i fields hloads
      simp [hloads]
    · rename_i v hnot hloads
      simp only [hloads, Option.some.injEq, reduceCtorEq, false_iff, not_exists, not_and]
      exact fun fields hv => absurd hv (hnot fields)
  simp only [validate, reported_bind, reported_lift, lift_ok, reported_ok, and_true, implies_true, checkFresh_ok_iff,
    checkSignature_ok_iff, reported_checkFresh, reported_openCiphertext, hfields]
  constructor
  · rintro ⟨⟨_, fields, hloads, rfl⟩, hrest⟩
    obtain ⟨⟨htimestamp, hnonce⟩, hsign⟩ := hrest _ ⟨fields, hloads, rfl⟩
    refine ⟨fields, hloads, htimestamp, hnonce, fun hin hunseen => ?_, fun hin hunseen hverifies => ?_⟩
    · exact (reported_checkSignature htimestamp).mp (hsign () ⟨hin, hunseen⟩).1
    · exact (hsign () ⟨hin, hunseen⟩).2 () hverifies
  · rintro ⟨fields, hloads, hreadable⟩
    refine ⟨⟨_, fields, hloads, rfl⟩, ?_⟩
    rintro _ ⟨fields', hloads', rfl⟩
    rw [hloads] at hloads'
    cases hloads'
    refine ⟨⟨hreadable.timestamp, hreadable.nonce⟩, ?_⟩
    rintro _ ⟨hin, hunseen⟩
    exact ⟨(reported_checkSignature hreadable.timestamp).mpr (hreadable.signable hin hunseen),
      fun _ hverifies => hreadable.openable hin hunseen hverifies⟩

end Exact

section Loop

structure Reports (reprOf : Value → Str) (hasMessageCb : Bool) (c : CryptoCodec) (now₁ now₂ : Int) (raw : Str) :
    Prop where
  returned : ∃ result, (c.decrypt reprOf now₁ now₂ raw).1 = .ok result ∧
    (result.ok = false → ∃ rejection, result.error = some rejection ∧ rejection.text reprOf ≠ [])
  loop : ∃ next, forwarderTake reprOf hasMessageCb c now₁ now₂ raw = .ok next

theorem text_ne_nil (reprOf : Value → Str) (rejection : Rejection) : rejection.text reprOf ≠ [] := by
  cases rejection <;> simp [Rejection.text, Rejection.noted, str]

theorem decrypt_reports_iff (reprOf : Value → Str) (hasMessageCb : Bool) (c : CryptoCodec) (now₁ now₂ : Int)
    (raw : Str) : Reports reprOf hasMessageCb c now₁ now₂ raw ↔ ReadableText reprOf c now₁ raw := by
  rw [← reported_validate]
  constructor
  · rintro ⟨⟨result, hresult, -⟩, -⟩ e he
    rw [decrypt, he] at hresult
    cases hresult
  · intro hreported
    cases hvalid : c.validate reprOf now₁ raw with
    | error refusal =>
        cases refusal with
        | raised e => exact absurd hvalid (hreported e)
        | rejected rejection =>
            have hdecrypt : c.decrypt reprOf now₁ now₂ raw = (.ok { error := some rejection }, c) := by
              rw [decrypt, hvalid]
            exact ⟨⟨_, by rw [hdecrypt], fun _ => ⟨rejection, rfl, text_ne_nil reprOf rejection⟩⟩,
              ⟨_, by rw [forwarderTake, hdecrypt]; rfl⟩⟩
    | ok opened =>
        obtain ⟨env, plaintext⟩ := opened
        obtain ⟨henv, -⟩ := validate_ok reprOf hvalid
        have hdecrypt : c.decrypt reprOf now₁ now₂ raw =
            (.ok { plaintext, ok := true }, c.recordNonce now₂ env.nonce) := by
          rw [decrypt, hvalid]
        refine ⟨⟨_, by rw [hdecrypt], fun hno => by cases hno⟩, ?_⟩
        cases htype : Agent.Transit.msgType env.type with
        | error e =>
            refine ⟨(c.recordNonce now₂ env.nonce, []), ?_⟩
            simp only [forwarderTake, hdecrypt, henv, htype, bind, Except.bind, Bool.not_true, Bool.false_eq_true,
              if_false]
        | ok type => exact ⟨_, IoLoop.forwarderTake_eq henv hdecrypt htype⟩

open Sending (sampleCodec)

-- One letter: json.loads raises, and nothing between it and the end of the session catches that.
theorem letter_ends_session :
    ((sampleCodec.decrypt (fun _ => []) 0 0 (str "x")).1 = .error .jsonDecodeError) ∧
      ¬ Reports (fun _ => []) true sampleCodec 0 0 (str "x") := by
  have hraised : (sampleCodec.decrypt (fun _ => []) 0 0 (str "x")).1 = .error .jsonDecodeError := rfl
  refine ⟨hraised, fun h => ?_⟩
  obtain ⟨result, hresult, -⟩ := h.returned
  rw [hraised] at hresult
  cases hresult

end Loop

end Ws.DecryptReports
