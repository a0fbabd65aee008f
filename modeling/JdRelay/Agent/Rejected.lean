import JdRelay.Agent.Interop
import JdRelay.Base.Receiver
import JdRelay.Crypto.Channel

namespace Agent.Rejected
open Text Json Runs

-- A message with the two clock readings its decrypt makes.
structure Delivery (M : Type) where
  message : M
  now₁ : Int
  now₂ : Int

def forwarder (reprOf : Value → Str) :
    Receiver Crypto.CryptoCodec (Delivery Str) (Except Python.Error Crypto.DecryptResult) where
  receive codec d := codec.decrypt reprOf d.now₁ d.now₂ d.message
  accepts
    | .ok result => result.ok
    | .error _ => false

-- io_loop makes the envelope of the text before it decrypts.
def agent (nl : Nlohmann) (ssl : OpenSsl) : Receiver CryptoCodec (Delivery Bytes) (Except Exn DecryptResult) where
  receive codec d :=
    match CryptoCodec.fromJson nl d.message with
    | .error e => (.error e, codec)
    | .ok env =>
        let (result, codec) := codec.decrypt ssl d.now₁ d.now₂ env
        (.ok result, codec)
  accepts
    | .ok result => result.ok
    | .error _ => false

theorem inert_forwarder (reprOf : Value → Str) : (forwarder reprOf).Inert := by
  intro codec d h
  simp only [forwarder, Crypto.CryptoCodec.decrypt] at h ⊢
  cases hvalid : codec.validate reprOf d.now₁ d.message with
  | error refusal => cases refusal <;> rfl
  | ok opened => simp [hvalid] at h

theorem inert_agent (nl : Nlohmann) (ssl : OpenSsl) : (agent nl ssl).Inert := by
  intro codec d h
  simp only [agent] at h ⊢
  cases henv : CryptoCodec.fromJson nl d.message with
  | error e => rfl
  | ok env =>
      simp only [henv, CryptoCodec.decrypt] at h ⊢
      split_ifs at h ⊢
      · rfl
      · rfl
      · rfl
      · rfl

theorem rejected_burns_nothing :
    (∀ reprOf codec before, (forwarder reprOf).Rejects codec before →
      ((forwarder reprOf).after codec before).guard.nonces = codec.guard.nonces ∧
        ∀ later, (forwarder reprOf).results codec (before ++ later) =
          (forwarder reprOf).results codec before ++ (forwarder reprOf).results codec later) ∧
    ∀ nl ssl codec before, (agent nl ssl).Rejects codec before →
      ((agent nl ssl).after codec before).guard.nonces = codec.guard.nonces ∧
        ∀ later, (agent nl ssl).results codec (before ++ later) =
          (agent nl ssl).results codec before ++ (agent nl ssl).results codec later := by
  constructor
  · intro reprOf codec before h
    have hinert := inert_forwarder reprOf
    exact ⟨congrArg (·.guard.nonces) (hinert.after_eq h), hinert.results_eq h⟩
  · intro nl ssl codec before h
    have hinert := inert_agent nl ssl
    exact ⟨congrArg (·.guard.nonces) (hinert.after_eq h), hinert.results_eq h⟩

section Samples

open Crypto.Channel (sampleWorld sampleNet sampleEnv editedEnv sampleText sampleIv sampleSealed sampleKey)
open Interop (sampleNl sampleSsl)

def forwarderCodec : Crypto.CryptoCodec := sampleWorld.codec sampleNet () .agent

def agentCodec : CryptoCodec where
  cipher :=
    { evpEncrypt := fun _ _ _ => .error (str "EVP_EncryptUpdate failed")
      evpDecrypt := fun ciphertext _ iv tag =>
        if iv = sampleIv ∧ ciphertext ++ tag = sampleSealed then .ok sampleText
        else .error (str "AES-GCM authentication tag verification failed") }
  signer := ⟨none, none⟩
  verifier := ⟨none, some sampleKey.publicKey⟩
  guard := .fresh 300

-- Not JSON, JSON that is no object, and the heartbeat turned into a trigger with its nonce kept.
def forged : List Str := [str "x", str "[]", editedEnv.toJson]

def forwarderForged : List (Delivery Str) := forged.map fun text => ⟨text, 1100, 1101⟩

def agentForged : List (Delivery Bytes) := forged.map fun text => ⟨bytes text, 1100, 1101⟩

theorem rejected_burns_nothing_forged :
    (forwarder fun _ => []).results forwarderCodec (forwarderForged ++ [⟨sampleEnv.toJson, 1200, 1201⟩]) =
        (forwarder fun _ => []).results forwarderCodec forwarderForged ++ [.ok { plaintext := sampleText, ok := true }] ∧
      (agent sampleNl sampleSsl).results agentCodec (agentForged ++ [⟨bytes sampleEnv.toJson, 1200, 1201⟩]) =
        (agent sampleNl sampleSsl).results agentCodec agentForged ++
          [.ok { plaintext := sampleText, ok := true }] := by
  have hforwarder := (rejected_burns_nothing.1 (fun _ => []) forwarderCodec forwarderForged (by decide +kernel)).2
  have hagent := (rejected_burns_nothing.2 sampleNl sampleSsl agentCodec agentForged (by decide +kernel)).2
  rw [hforwarder, hagent]
  have hone : (forwarder fun _ => []).results forwarderCodec [⟨sampleEnv.toJson, 1200, 1201⟩] =
      [.ok { plaintext := sampleText, ok := true }] := by decide +kernel
  have htwo : (agent sampleNl sampleSsl).results agentCodec [⟨bytes sampleEnv.toJson, 1200, 1201⟩] =
      [.ok { plaintext := sampleText, ok := true }] := by decide +kernel
  exact ⟨congrArg _ hone, congrArg _ htwo⟩

end Samples

end Agent.Rejected
