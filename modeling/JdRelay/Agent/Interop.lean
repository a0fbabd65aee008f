import JdRelay.Agent.CryptoCodec
import JdRelay.Base.Utf8

namespace Agent.Interop
open Text Json Crypto
open Base64Text (toInt)

structure Sealed where
  payload : Bytes
  signature : Bytes
  ciphertext : Bytes
  iv : Bytes
  tag : Bytes

section Receivers

variable (reprOf : Value → Str) (nl : Nlohmann) (ssl : OpenSsl)

-- The checks of CryptoCodec.decrypt that need no key.
structure PyReady (g : ReplayGuard Str) (now : Int) (env : Crypto.CryptoEnvelope) (m : Sealed) : Prop where
  inWindow : Crypto.CryptoCodec.within g now env.timestamp = .ok true
  unseen : Crypto.CryptoCodec.seen g env.nonce = .ok false
  payload : ∃ s, env.buildSigningPayload reprOf = .ok s ∧ encodeUtf8 s = some m.payload
  signature : Crypto.CryptoCodec.b64Field env.signature = .ok m.signature
  ciphertext : Crypto.CryptoCodec.b64Field env.ciphertext = .ok m.ciphertext
  iv : Crypto.CryptoCodec.b64Field env.iv = .ok m.iv
  tag : Crypto.CryptoCodec.b64Field env.tag = .ok m.tag
  ivSize : m.iv.length = 12
  tagSize : m.tag.length = 16

-- Those of CryptoCodec::decrypt.
structure CppReady (g : ReplayGuard Str) (now : Int) (env : CryptoEnvelope) (m : Sealed) : Prop where
  inWindow : ReplayGuard.isWithinWindow g now env.timestamp = true
  unseen : ReplayGuard.isReplay g env.nonce = false
  payload : bytes (buildSigningPayload env) = m.payload
  signature : ssl.base64Decode env.signature = m.signature
  ciphertext : ssl.base64Decode env.ciphertext = m.ciphertext
  iv : ssl.base64Decode env.iv = m.iv
  tag : ssl.base64Decode env.tag = m.tag
  ivSize : m.iv.length = 12
  tagSize : m.tag.length = 16

def PyAccepts (c : Crypto.CryptoCodec) (now₁ now₂ : Int) (text : Str) (plaintext : Bytes) : Prop :=
  ∃ r, (c.decrypt reprOf now₁ now₂ text).1 = .ok r ∧ r.ok = true ∧ r.plaintext = plaintext

def CppAccepts (c : CryptoCodec) (now₁ now₂ : Int) (data plaintext : Bytes) : Prop :=
  ∃ env, CryptoCodec.fromJson nl data = .ok env ∧ (c.decrypt ssl now₁ now₂ env).1.ok = true ∧
    (c.decrypt ssl now₁ now₂ env).1.plaintext = plaintext

structure Matched (g : ReplayGuard Str) (py : Crypto.CryptoCodec) (cpp : CryptoCodec) : Prop where
  pyGuard : py.guard = g
  cppGuard : cpp.guard = g
  verify : ∀ data signature, py.verifier.verify data signature = cpp.verifier.verify data signature
  decrypt : ∀ ciphertext iv tag plaintext, iv.length = 12 → tag.length = 16 → ciphertext.length < 2147483648 →
    (py.cipher.aead.decrypt iv (ciphertext ++ tag) = .ok plaintext ↔
      cpp.cipher.evpDecrypt ciphertext ciphertext.length iv tag = .ok plaintext)

def Agree (g : ReplayGuard Str) (now₁ now₂ : Int) (text : Str) (data : Bytes) : Prop :=
  ∀ py cpp, Matched g py cpp → ∀ plaintext,
    PyAccepts reprOf py now₁ now₂ text plaintext ↔ CppAccepts nl ssl cpp now₁ now₂ data plaintext

-- Both parsers find the same keys and read the same strings; nlohmann's are UTF-8.
structure StandardJson : Prop where
  strings : ∀ {text data fields fields'}, encodeUtf8 text = some data → loads text = some (.obj fields) →
    nl.parse data = some (.obj fields') →
      ∀ key s, lookup? fields key = some (.str s) ↔ lookup? fields' key = some (.str s)
  keys : ∀ {text data fields fields'}, encodeUtf8 text = some data → loads text = some (.obj fields) →
    nl.parse data = some (.obj fields') → ∀ key, lookup? fields key = none ↔ lookup? fields' key = none
  utf8 : ∀ {data fields key s}, nl.parse data = some (.obj fields) → lookup? fields key = some (.str s) →
    (encodeUtf8 s).isSome

-- An integer that int64 holds, or no timestamp at all.
def SameTime (fields fields' : List (Str × Value)) : Prop :=
  ∃ n, Python.get fields "timestamp" (.int 0) = .int n ∧
    Nlohmann.value nl.getLongLong (str "timestamp") 0 (.obj fields') = .ok n

def SameBytes (fields : List (Str × Value)) (key : String) : Prop :=
  b64Decode (CryptoCodec.text fields key) = some (ssl.base64Decode (CryptoCodec.text fields key))

structure Regular (fields fields' : List (Str × Value)) : Prop where
  time : SameTime nl fields fields'
  signature : SameBytes ssl fields' "signature"
  ciphertext : SameBytes ssl fields' "ciphertext"
  iv : SameBytes ssl fields' "iv"
  tag : SameBytes ssl fields' "tag"

def PyPasses (g : ReplayGuard Str) (now : Int) (text : Str) : Prop :=
  ∃ fields m, loads text = some (.obj fields) ∧ PyReady reprOf g now (Crypto.CryptoEnvelope.ofFields fields) m

def CppPasses (g : ReplayGuard Str) (now : Int) (data : Bytes) : Prop :=
  ∃ fields m, nl.parse data = some (.obj fields) ∧ CryptoCodec.WellTyped nl fields ∧
    CppReady ssl g now (CryptoCodec.ofFields nl fields) m

def InStep (g : ReplayGuard Str) (now : Int) (text : Str) (data : Bytes) : Prop :=
  PyPasses reprOf g now text ∨ CppPasses nl ssl g now data →
    ∃ fields fields', loads text = some (.obj fields) ∧ nl.parse data = some (.obj fields') ∧
      Regular nl ssl fields fields'

end Receivers

section Python

variable {reprOf : Value → Str} {c : Crypto.CryptoCodec} {now₁ now₂ : Int} {text : Str} {plaintext : Bytes}
  {env : Crypto.CryptoEnvelope}

theorem pyFromJson_ok_iff : Crypto.CryptoEnvelope.fromJson text = .ok env ↔
    ∃ fields, loads text = some (.obj fields) ∧ Crypto.CryptoEnvelope.ofFields fields = env := by
  unfold Crypto.CryptoEnvelope.fromJson
  cases loads text with
  | none => simp
  | some v => cases v <;> simp

theorem pyDecrypt_ok_iff (cipher : Crypto.AesGcmCipher) (ciphertext iv tag : Bytes) :
    (cipher.decrypt ciphertext iv tag).ok = true ∧ (cipher.decrypt ciphertext iv tag).plaintext = plaintext ↔
      iv.length = 12 ∧ tag.length = 16 ∧ cipher.aead.decrypt iv (ciphertext ++ tag) = .ok plaintext := by
  unfold Crypto.AesGcmCipher.decrypt ivSize tagSize
  split_ifs with hiv htag
  · simp [hiv]
  · simp [htag]
  · cases cipher.aead.decrypt iv (ciphertext ++ tag) <;> simp_all

theorem validate_ok_iff : c.validate reprOf now₁ text = .ok (env, plaintext) ↔
    Crypto.CryptoEnvelope.fromJson text = .ok env ∧ ∃ m, PyReady reprOf c.guard now₁ env m ∧
      c.verifier.verify m.payload m.signature = true ∧
      c.cipher.aead.decrypt m.iv (m.ciphertext ++ m.tag) = .ok plaintext := by
  simp only [Crypto.CryptoCodec.validate, Crypto.CryptoCodec.checkFresh, Crypto.CryptoCodec.checkSignature,
    Crypto.CryptoCodec.openCiphertext, Python.bind_ok, Crypto.CryptoCodec.lift_ok, Crypto.CryptoCodec.require_ok,
    Crypto.CryptoCodec.utf8_ok]
  constructor
  · rintro ⟨env', hjson, -, ⟨_, hwindow, -, rfl, _, hseen, hfresh⟩, -,
      ⟨payload, hpayload, signature, hsignature, data, hdata, hverify⟩, out,
      ⟨ciphertext, hciphertext, iv, hiv, tag, htag, -, hok, hout⟩, heq⟩
    cases heq
    rw [Bool.not_eq_true'] at hfresh
    subst hfresh
    obtain ⟨hivSize, htagSize, hopen⟩ := (pyDecrypt_ok_iff c.cipher ciphertext iv tag).mp ⟨hok, Except.ok.inj hout⟩
    exact ⟨hjson, ⟨data, signature, ciphertext, iv, tag⟩, ⟨hwindow, hseen, ⟨payload, hpayload, hdata⟩, hsignature,
      hciphertext, hiv, htag, hivSize, htagSize⟩, hverify, hopen⟩
  · rintro ⟨hjson, m, ⟨hwindow, hseen, ⟨payload, hpayload, hdata⟩, hsignature, hciphertext, hiv, htag, hivSize,
      htagSize⟩, hverify, hopen⟩
    obtain ⟨hok, hout⟩ := (pyDecrypt_ok_iff c.cipher m.ciphertext m.iv m.tag).mpr ⟨hivSize, htagSize, hopen⟩
    exact ⟨env, hjson, (), ⟨true, hwindow, (), rfl, false, hseen, rfl⟩, (),
      ⟨payload, hpayload, m.signature, hsignature, m.payload, hdata, hverify⟩, plaintext,
      ⟨m.ciphertext, hciphertext, m.iv, hiv, m.tag, htag, (), hok, congrArg _ hout⟩, rfl⟩

theorem pyAccepts_iff_validate :
    PyAccepts reprOf c now₁ now₂ text plaintext ↔ ∃ env, c.validate reprOf now₁ text = .ok (env, plaintext) := by
  unfold PyAccepts Crypto.CryptoCodec.decrypt
  cases hvalidate : c.validate reprOf now₁ text with
  | error e => cases e <;> simp
  | ok out =>
      obtain ⟨env, p⟩ := out
      simp

theorem pyAccepts_iff : PyAccepts reprOf c now₁ now₂ text plaintext ↔
    ∃ fields m, loads text = some (.obj fields) ∧
      PyReady reprOf c.guard now₁ (Crypto.CryptoEnvelope.ofFields fields) m ∧
      c.verifier.verify m.payload m.signature = true ∧
      c.cipher.aead.decrypt m.iv (m.ciphertext ++ m.tag) = .ok plaintext := by
  simp only [pyAccepts_iff_validate, validate_ok_iff, pyFromJson_ok_iff]
  constructor
  · rintro ⟨_, ⟨fields, hloads, rfl⟩, m, hm⟩
    exact ⟨fields, m, hloads, hm⟩
  · rintro ⟨fields, m, hloads, hm⟩
    exact ⟨_, ⟨fields, hloads, rfl⟩, m, hm⟩

end Python

section Cpp

variable {nl : Nlohmann} {ssl : OpenSsl} {c : CryptoCodec} {now₁ now₂ : Int} {data plaintext : Bytes}

theorem cppDecrypt_ok_iff (cipher : AesGcmCipher) (ciphertext iv tag : Bytes) :
    (cipher.decrypt ciphertext iv tag).ok = true ∧ (cipher.decrypt ciphertext iv tag).plaintext = plaintext ↔
      iv.length = 12 ∧ tag.length = 16 ∧ cipher.evpDecrypt ciphertext (toInt ciphertext.length) iv tag = .ok plaintext := by
  unfold AesGcmCipher.decrypt
  split_ifs with hiv htag
  · simp [hiv]
  · simp [htag]
  · cases cipher.evpDecrypt ciphertext (toInt ciphertext.length) iv tag <;> simp_all

theorem decrypt_plaintext {env : CryptoEnvelope} (h : (c.decrypt ssl now₁ now₂ env).1.ok = true) :
    (c.decrypt ssl now₁ now₂ env).1.plaintext = (c.cipher.decrypt (ssl.base64Decode env.ciphertext)
      (ssl.base64Decode env.iv) (ssl.base64Decode env.tag)).plaintext := by
  simp only [CryptoCodec.decrypt] at h ⊢
  split_ifs at h ⊢
  rfl

theorem cppAccepts_iff : CppAccepts nl ssl c now₁ now₂ data plaintext ↔
    ∃ fields m, nl.parse data = some (.obj fields) ∧ CryptoCodec.WellTyped nl fields ∧
      CppReady ssl c.guard now₁ (CryptoCodec.ofFields nl fields) m ∧
      c.verifier.verify m.payload m.signature = true ∧
      c.cipher.evpDecrypt m.ciphertext (toInt m.ciphertext.length) m.iv m.tag = .ok plaintext := by
  constructor
  · rintro ⟨_, hjson, hok, hout⟩
    obtain ⟨fields, hparse, htyped, rfl⟩ := CryptoCodec.fromJson_ok_iff.mp hjson
    rw [decrypt_plaintext hok] at hout
    obtain ⟨hwindow, hseen, hverify, hcipher⟩ := (CryptoCodec.decrypt_ok_iff ssl c).mp hok
    obtain ⟨hivSize, htagSize, hopen⟩ := (cppDecrypt_ok_iff _ _ _ _).mp ⟨hcipher, hout⟩
    generalize hpayload : bytes (buildSigningPayload _) = payload at hverify
    generalize hsignature : ssl.base64Decode _ = signature at hverify
    generalize hciphertext : ssl.base64Decode (CryptoCodec.ofFields nl fields).ciphertext = ciphertext at hopen
    generalize hiv : ssl.base64Decode (CryptoCodec.ofFields nl fields).iv = iv at hivSize hopen
    generalize htag : ssl.base64Decode (CryptoCodec.ofFields nl fields).tag = tag at htagSize hopen
    exact ⟨fields, ⟨payload, signature, ciphertext, iv, tag⟩, hparse, htyped,
      ⟨hwindow, hseen, hpayload, hsignature, hciphertext, hiv, htag, hivSize, htagSize⟩, hverify, hopen⟩
  · rintro ⟨fields, m, hparse, htyped, hready, hverify, hopen⟩
    obtain ⟨hcipher, hout⟩ := (cppDecrypt_ok_iff _ _ _ _).mpr ⟨hready.ivSize, hready.tagSize, hopen⟩
    rw [← hready.payload, ← hready.signature] at hverify
    rw [← hready.ciphertext, ← hready.iv, ← hready.tag] at hcipher hout
    have hok : (c.decrypt ssl now₁ now₂ (CryptoCodec.ofFields nl fields)).1.ok = true :=
      (CryptoCodec.decrypt_ok_iff ssl c).mpr ⟨hready.inWindow, hready.unseen, hverify, hcipher⟩
    have hjson : CryptoCodec.fromJson nl data = .ok (CryptoCodec.ofFields nl fields) :=
      CryptoCodec.fromJson_ok_iff.mpr ⟨fields, hparse, htyped, rfl⟩
    exact ⟨CryptoCodec.ofFields nl fields, hjson, hok, (decrypt_plaintext hok).trans hout⟩

end Cpp

-- What Python reads where C++ reads env.
def embed (env : CryptoEnvelope) : Crypto.CryptoEnvelope where
  msgId := .str env.msgId
  timestamp := .int env.timestamp
  nonce := .str env.nonce
  type := .str env.type
  iv := .str env.iv
  ciphertext := .str env.ciphertext
  tag := .str env.tag
  signature := .str env.signature

def textKeys : List String := ["msg_id", "nonce", "type", "iv", "ciphertext", "tag", "signature"]

section Fields

variable {reprOf : Value → Str} {nl : Nlohmann} {ssl : OpenSsl} {g : ReplayGuard Str} {now : Int} {m : Sealed}

theorem buildSigningPayload_join (env : CryptoEnvelope) : buildSigningPayload env =
    join bar [env.msgId, Number.intStr env.timestamp, env.nonce, env.type, env.iv, env.ciphertext, env.tag] := by
  have hbar : str "|" = [bar] := rfl
  simp only [buildSigningPayload, hbar, join_cons_cons, join_singleton, List.append_assoc, List.cons_append,
    List.nil_append]

theorem buildSigningPayload_embed (env : CryptoEnvelope) :
    (embed env).buildSigningPayload reprOf = .ok (buildSigningPayload env) := by
  rw [buildSigningPayload_join]
  rfl

theorem b64Field_str {s : Str} {b : Bytes} : Crypto.CryptoCodec.b64Field (.str s) = .ok b ↔ b64Decode s = some b := by
  simp [Crypto.CryptoCodec.b64Field_ok]

theorem within_int {timestamp : Int} : Crypto.CryptoCodec.within g now (.int timestamp) = .ok true ↔
    ReplayGuard.isWithinWindow g now timestamp = true := by
  rw [Crypto.CryptoCodec.within, Python.between, Except.ok.injEq]
  rfl

theorem seen_str {nonce : Str} : Crypto.CryptoCodec.seen g (.str nonce) = .ok false ↔
    ReplayGuard.isReplay g nonce = false := by
  simp [Crypto.CryptoCodec.seen, ReplayGuard.isReplay_eq]

theorem ready_embed {env : CryptoEnvelope} (hpayload : Scalar (buildSigningPayload env))
    (hsignature : b64Decode env.signature = some (ssl.base64Decode env.signature))
    (hciphertext : b64Decode env.ciphertext = some (ssl.base64Decode env.ciphertext))
    (hiv : b64Decode env.iv = some (ssl.base64Decode env.iv)) (htag : b64Decode env.tag = some (ssl.base64Decode env.tag)) :
    PyReady reprOf g now (embed env) m ↔ CppReady ssl g now env m := by
  obtain ⟨data, hdata⟩ := Option.isSome_iff_exists.mp (scalar_iff.mpr hpayload)
  have hbytes : bytes (buildSigningPayload env) = data := by rw [bytes, hdata, Option.getD_some]
  have hfield : ∀ {s : Str} {b : Bytes}, b64Decode s = some (ssl.base64Decode s) →
      (Crypto.CryptoCodec.b64Field (.str s) = .ok b ↔ ssl.base64Decode s = b) := by
    intro s b hs
    rw [b64Field_str, hs, Option.some.injEq]
  constructor
  · rintro ⟨h₁, h₂, ⟨s, hs, hencode⟩, h₃, h₄, h₅, h₆, h₇, h₈⟩
    rw [buildSigningPayload_embed] at hs
    cases hs
    rw [hdata, Option.some.injEq] at hencode
    exact ⟨within_int.mp h₁, seen_str.mp h₂, hbytes.trans hencode, (hfield hsignature).mp h₃, (hfield hciphertext).mp h₄,
      (hfield hiv).mp h₅, (hfield htag).mp h₆, h₇, h₈⟩
  · rintro ⟨h₁, h₂, hp, h₃, h₄, h₅, h₆, h₇, h₈⟩
    have hencode : encodeUtf8 (buildSigningPayload env) = some m.payload :=
      hdata.trans (congrArg some (hbytes.symm.trans hp))
    exact ⟨within_int.mpr h₁, seen_str.mpr h₂, ⟨_, buildSigningPayload_embed env, hencode⟩,
      (hfield hsignature).mpr h₃, (hfield hciphertext).mpr h₄, (hfield hiv).mpr h₅, (hfield htag).mpr h₆, h₇, h₈⟩

variable {text : Str} {data : Bytes} {fields fields' : List (Str × Value)}

theorem get_eq_str (hjson : StandardJson nl) (hdata : encodeUtf8 text = some data)
    (hloads : loads text = some (.obj fields)) (hparse : nl.parse data = some (.obj fields')) {key : String}
    {s : Str} :
    Python.get fields key (.str []) = .str s ↔
      CryptoCodec.textField fields' key = true ∧ CryptoCodec.text fields' key = s := by
  have hstr := hjson.strings hdata hloads hparse (str key)
  have hnone := hjson.keys hdata hloads hparse (str key)
  simp only [Python.get, CryptoCodec.textField, CryptoCodec.text, Nlohmann.hasType, Nlohmann.valueOr]
  cases hlook : lookup? fields' (str key) with
  | none =>
      rw [hnone.mpr hlook]
      simp
  | some v =>
      cases hget : lookup? fields (str key) with
      | none => exact absurd (hnone.mp hget) (by simp [hlook])
      | some w =>
          have hs := hstr s
          rw [hlook, hget] at hs
          simp only [Option.some.injEq] at hs
          simp only [Option.getD_some, Option.all_some, Option.bind_some]
          rw [hs]
          cases v <;> simp [Nlohmann.getString]

theorem scalar_text (hjson : StandardJson nl) (hparse : nl.parse data = some (.obj fields')) (key : String) :
    Scalar (CryptoCodec.text fields' key) := by
  rw [← scalar_iff, CryptoCodec.text, Nlohmann.valueOr]
  cases hlook : lookup? fields' (str key) with
  | none => rfl
  | some v =>
      cases v with
      | str s => exact hjson.utf8 hparse hlook
      | _ => rfl

theorem scalar_payload (hjson : StandardJson nl) (hparse : nl.parse data = some (.obj fields')) :
    Scalar (buildSigningPayload (CryptoCodec.ofFields nl fields')) := by
  have htext := scalar_text hjson hparse
  rw [buildSigningPayload_join]
  refine scalar_join (scalar_str "|") ?_
  simp only [List.forall_mem_cons]
  exact ⟨htext _, Number.scalar_intStr _, htext _, htext _, htext _, htext _, htext _, nofun⟩

theorem pyReady_texts (h : PyReady reprOf g now (Crypto.CryptoEnvelope.ofFields fields) m) :
    ∀ key ∈ textKeys, ∃ s, Python.get fields key (.str []) = .str s := by
  obtain ⟨payload, hpayload, -⟩ := h.payload
  obtain ⟨msgId, nonce, type, iv, ciphertext, tag, h₁, h₂, h₃, h₄, h₅, h₆, -⟩ :=
    Crypto.CryptoEnvelope.buildSigningPayload_ok hpayload
  obtain ⟨signature, h₇, -⟩ := Crypto.CryptoCodec.b64Field_ok.mp h.signature
  simp only [textKeys, List.forall_mem_cons]
  exact ⟨⟨_, h₁⟩, ⟨_, h₂⟩, ⟨_, h₃⟩, ⟨_, h₄⟩, ⟨_, h₅⟩, ⟨_, h₆⟩, ⟨_, h₇⟩, nofun⟩

theorem wellTyped_iff : CryptoCodec.WellTyped nl fields ↔
    Nlohmann.hasType nl.getLongLong fields (str "timestamp") = true ∧
      ∀ key ∈ textKeys, CryptoCodec.textField fields key = true := by
  simp only [CryptoCodec.WellTyped, textKeys, List.forall_mem_cons]
  constructor
  · rintro ⟨h₁, ht, h₂, h₃, h₄, h₅, h₆, h₇⟩
    exact ⟨ht, h₁, h₂, h₃, h₄, h₅, h₆, h₇, nofun⟩
  · rintro ⟨ht, h₁, h₂, h₃, h₄, h₅, h₆, h₇, -⟩
    exact ⟨h₁, ht, h₂, h₃, h₄, h₅, h₆, h₇⟩

theorem sameTime_iff : SameTime nl fields fields' ↔
    Nlohmann.hasType nl.getLongLong fields' (str "timestamp") = true ∧
      Python.get fields "timestamp" (.int 0) = .int (Nlohmann.valueOr nl.getLongLong fields' (str "timestamp") 0) := by
  unfold SameTime
  rw [Nlohmann.value_obj]
  split <;> simp_all

theorem ofFields_eq (hjson : StandardJson nl) (hdata : encodeUtf8 text = some data)
    (hloads : loads text = some (.obj fields)) (hparse : nl.parse data = some (.obj fields'))
    (htime : SameTime nl fields fields') (htexts : ∀ key ∈ textKeys, CryptoCodec.textField fields' key = true) :
    Crypto.CryptoEnvelope.ofFields fields = embed (CryptoCodec.ofFields nl fields') := by
  have hget : ∀ key ∈ textKeys, Python.get fields key (.str []) = .str (CryptoCodec.text fields' key) :=
    fun key hkey => (get_eq_str hjson hdata hloads hparse).mpr ⟨htexts key hkey, rfl⟩
  simp only [textKeys, List.forall_mem_cons] at hget
  obtain ⟨h₁, h₂, h₃, h₄, h₅, h₆, h₇, -⟩ := hget
  have ht := (sameTime_iff.mp htime).2
  rw [Crypto.CryptoEnvelope.ofFields, h₁, h₂, h₃, h₄, h₅, h₆, h₇, ht]
  rfl

theorem sameTime_of_ready (hjson : StandardJson nl) (hdata : encodeUtf8 text = some data)
    (hloads : loads text = some (.obj fields)) (hparse : nl.parse data = some (.obj fields'))
    (htyped : CryptoCodec.WellTyped nl fields') (hpy : PyReady reprOf g now (Crypto.CryptoEnvelope.ofFields fields) m)
    (hcpp : CppReady ssl g now (CryptoCodec.ofFields nl fields') m) : SameTime nl fields fields' := by
  obtain ⟨hstamp, htexts⟩ := wellTyped_iff.mp htyped
  have hget : ∀ key ∈ textKeys, Python.get fields key (.str []) = .str (CryptoCodec.text fields' key) :=
    fun key hkey => (get_eq_str hjson hdata hloads hparse).mpr ⟨htexts key hkey, rfl⟩
  obtain ⟨payload, hpayload, hencode⟩ := hpy.payload
  obtain ⟨msgId, nonce, type, iv, ciphertext, tag, h₁, h₂, h₃, h₄, h₅, h₆, rfl⟩ :=
    Crypto.CryptoEnvelope.buildSigningPayload_ok hpayload
  simp only [textKeys, List.forall_mem_cons] at hget
  obtain ⟨hmsgId, hnonce, htype, hiv, hciphertext, htag, -⟩ := hget
  cases hmsgId.symm.trans h₁
  cases hnonce.symm.trans h₂
  cases htype.symm.trans h₃
  cases hiv.symm.trans h₄
  cases hciphertext.symm.trans h₅
  cases htag.symm.trans h₆
  have hcpp := hcpp.payload
  obtain ⟨b, hb⟩ := Option.isSome_iff_exists.mp (scalar_iff.mpr (scalar_payload hjson hparse))
  rw [bytes, hb, Option.getD_some] at hcpp
  subst hcpp
  have heq := encode_injective hencode hb
  rw [buildSigningPayload_join, join_cons_cons, join_cons_cons, join_cons_cons, join_cons_cons] at heq
  have hrest := List.cons.inj (List.append_cancel_left heq)
  have hrender := List.append_cancel_right hrest.2
  exact sameTime_iff.mpr ⟨hstamp, Python.strOf_eq_intStr hpy.inWindow hrender⟩

theorem ready_iff_of_regular (hjson : StandardJson nl) (hdata : encodeUtf8 text = some data)
    (hloads : loads text = some (.obj fields)) (hparse : nl.parse data = some (.obj fields'))
    (hregular : Regular nl ssl fields fields') (htexts : ∀ key ∈ textKeys, CryptoCodec.textField fields' key = true) :
    PyReady reprOf g now (Crypto.CryptoEnvelope.ofFields fields) m ↔
      CppReady ssl g now (CryptoCodec.ofFields nl fields') m := by
  rw [ofFields_eq hjson hdata hloads hparse hregular.time htexts]
  exact ready_embed (scalar_payload hjson hparse) hregular.signature hregular.ciphertext hregular.iv hregular.tag

theorem regular_of_ready (hjson : StandardJson nl) (hdata : encodeUtf8 text = some data)
    (hloads : loads text = some (.obj fields)) (hparse : nl.parse data = some (.obj fields'))
    (htyped : CryptoCodec.WellTyped nl fields') (hpy : PyReady reprOf g now (Crypto.CryptoEnvelope.ofFields fields) m)
    (hcpp : CppReady ssl g now (CryptoCodec.ofFields nl fields') m) : Regular nl ssl fields fields' := by
  have htime := sameTime_of_ready hjson hdata hloads hparse htyped hpy hcpp
  rw [ofFields_eq hjson hdata hloads hparse htime (wellTyped_iff.mp htyped).2] at hpy
  exact ⟨htime, (b64Field_str.mp hpy.signature).trans (congrArg some hcpp.signature.symm),
    (b64Field_str.mp hpy.ciphertext).trans (congrArg some hcpp.ciphertext.symm),
    (b64Field_str.mp hpy.iv).trans (congrArg some hcpp.iv.symm),
    (b64Field_str.mp hpy.tag).trans (congrArg some hcpp.tag.symm)⟩

end Fields

section Keys

variable (g : ReplayGuard Str) (m : Sealed)

theorem zeroKey_size : (List.replicate 32 (0 : UInt8)).length = 32 := List.length_replicate

def pyOnly : Crypto.CryptoCodec where
  cipher :=
    { key := List.replicate 32 0
      aead :=
        { encrypt := fun _ _ => .error []
          decrypt := fun iv ctWithTag => if iv = m.iv ∧ ctWithTag = m.ciphertext ++ m.tag then .ok [] else .error [] }
      key_size := zeroKey_size }
  signer := ⟨none, none⟩
  verifier := ⟨none, some ⟨fun signature data => decide (signature = m.signature ∧ data = m.payload)⟩⟩
  guard := g

def cppOnly : CryptoCodec where
  cipher :=
    { evpEncrypt := fun _ _ _ => .error []
      evpDecrypt := fun ciphertext _ iv tag =>
        if iv = m.iv ∧ ciphertext ++ tag = m.ciphertext ++ m.tag then .ok [] else .error [] }
  signer := ⟨none, none⟩
  verifier := ⟨none, some ⟨fun signature data => decide (signature = m.signature ∧ data = m.payload)⟩⟩
  guard := g

theorem matched_only : Matched g (pyOnly g m) (cppOnly g m) := ⟨rfl, rfl, fun _ _ => rfl, fun _ _ _ _ _ _ _ => Iff.rfl⟩

theorem only_verifies : (cppOnly g m).verifier.verify m.payload m.signature = true := decide_eq_true ⟨rfl, rfl⟩

theorem only_decrypts (inl : Int) : (cppOnly g m).cipher.evpDecrypt m.ciphertext inl m.iv m.tag = .ok [] :=
  if_pos ⟨rfl, rfl⟩

variable {m} {m' : Sealed} {plaintext : Bytes}

theorem only_eq (hverify : (cppOnly g m).verifier.verify m'.payload m'.signature = true)
    (hopen : m'.iv = m.iv ∧ m'.ciphertext ++ m'.tag = m.ciphertext ++ m.tag)
    (htag : m.tag.length = 16) (htag' : m'.tag.length = 16) : m' = m := by
  obtain ⟨hsignature, hpayload⟩ := of_decide_eq_true hverify
  obtain ⟨hciphertext, htag⟩ := List.append_inj' hopen.2 (htag'.trans htag.symm)
  obtain ⟨payload, signature, ciphertext, iv, tag⟩ := m
  obtain ⟨payload', signature', ciphertext', iv', tag'⟩ := m'
  exact Sealed.mk.injEq _ _ _ _ _ _ _ _ _ _ ▸ ⟨hpayload, hsignature, hciphertext, hopen.1, htag⟩

theorem only_opens {x : Bytes} {iv : Bytes}
    (h : (if iv = m.iv ∧ x = m.ciphertext ++ m.tag then (.ok [] : Except Str Bytes) else .error []) = .ok plaintext) :
    iv = m.iv ∧ x = m.ciphertext ++ m.tag := by
  split at h
  · assumption
  · cases h

end Keys

section Agreement

variable {reprOf : Value → Str} {nl : Nlohmann} {ssl : OpenSsl} {g : ReplayGuard Str} {now₁ now₂ : Int} {text : Str}
  {data : Bytes}

-- BIO_read has given the ciphertext, so int holds its length.
theorem CppReady.inl {env : CryptoEnvelope} {m : Sealed} (h : CppReady ssl g now₁ env m) :
    m.ciphertext.length < 2147483648 := h.ciphertext ▸ ssl.length_base64Decode _

theorem Matched.decrypt_iff {py : Crypto.CryptoCodec} {cpp : CryptoCodec} (hkeys : Matched g py cpp)
    {env : CryptoEnvelope} {m : Sealed} {plaintext : Bytes} (h : CppReady ssl g now₁ env m) :
    py.cipher.aead.decrypt m.iv (m.ciphertext ++ m.tag) = .ok plaintext ↔
      cpp.cipher.evpDecrypt m.ciphertext (toInt m.ciphertext.length) m.iv m.tag = .ok plaintext := by
  rw [Base64Text.toInt_eq h.inl]
  exact hkeys.decrypt _ _ _ _ h.ivSize h.tagSize h.inl

theorem agree_of_inStep (hjson : StandardJson nl) (hdata : encodeUtf8 text = some data)
    (h : InStep reprOf nl ssl g now₁ text data) : Agree reprOf nl ssl g now₁ now₂ text data := by
  intro py cpp hkeys plaintext
  rw [pyAccepts_iff, cppAccepts_iff, hkeys.pyGuard, hkeys.cppGuard]
  constructor
  · rintro ⟨fields, m, hloads, hready, hverify, hopen⟩
    obtain ⟨_, fields', hloads', hparse, hregular⟩ := h (.inl ⟨fields, m, hloads, hready⟩)
    cases hloads.symm.trans hloads'
    have htexts : ∀ key ∈ textKeys, CryptoCodec.textField fields' key = true := by
      intro key hkey
      obtain ⟨s, hs⟩ := pyReady_texts hready key hkey
      exact ((get_eq_str hjson hdata hloads hparse).mp hs).1
    have hcpp := (ready_iff_of_regular hjson hdata hloads hparse hregular htexts).mp hready
    exact ⟨fields', m, hparse, wellTyped_iff.mpr ⟨(sameTime_iff.mp hregular.time).1, htexts⟩, hcpp,
      hkeys.verify _ _ ▸ hverify,
      (hkeys.decrypt_iff hcpp).mp hopen⟩
  · rintro ⟨fields', m, hparse, htyped, hready, hverify, hopen⟩
    obtain ⟨fields, _, hloads, hparse', hregular⟩ := h (.inr ⟨fields', m, hparse, htyped, hready⟩)
    cases hparse.symm.trans hparse'
    exact ⟨fields, m, hloads,
      (ready_iff_of_regular hjson hdata hloads hparse hregular (wellTyped_iff.mp htyped).2).mpr hready,
      (hkeys.verify _ _).trans hverify, (hkeys.decrypt_iff hready).mpr hopen⟩

theorem inStep_of_agree (hjson : StandardJson nl) (hdata : encodeUtf8 text = some data)
    (h : Agree reprOf nl ssl g now₁ now₂ text data) : InStep reprOf nl ssl g now₁ text data := by
  rintro (⟨fields, m, hloads, hready⟩ | ⟨fields', m, hparse, htyped, hready⟩)
  · have hopens : (pyOnly g m).cipher.aead.decrypt m.iv (m.ciphertext ++ m.tag) = .ok [] := if_pos ⟨rfl, rfl⟩
    have haccepts := (h _ _ (matched_only g m) []).mp (pyAccepts_iff.mpr
      ⟨fields, m, hloads, hready, only_verifies g m, hopens⟩)
    obtain ⟨fields', m', hparse, htyped, hcpp, hverify, hopen⟩ := cppAccepts_iff.mp haccepts
    cases only_eq g hverify (only_opens hopen) hready.tagSize hcpp.tagSize
    exact ⟨fields, fields', hloads, hparse, regular_of_ready hjson hdata hloads hparse htyped hready hcpp⟩
  · have haccepts := (h _ _ (matched_only g m) []).mpr (cppAccepts_iff.mpr
      ⟨fields', m, hparse, htyped, hready, only_verifies g m, only_decrypts g m _⟩)
    obtain ⟨fields, m', hloads, hpy, hverify, hopen⟩ := pyAccepts_iff.mp haccepts
    cases only_eq g hverify (only_opens hopen) hready.tagSize hpy.tagSize
    exact ⟨fields, fields', hloads, hparse, regular_of_ready hjson hdata hloads hparse htyped hpy hready⟩

theorem agree_iff (hjson : StandardJson nl) (hdata : encodeUtf8 text = some data) :
    Agree reprOf nl ssl g now₁ now₂ text data ↔ InStep reprOf nl ssl g now₁ text data :=
  ⟨inStep_of_agree hjson hdata, agree_of_inStep hjson hdata⟩

end Agreement

def textual (fields : List (Str × Value)) : Bool :=
  fields.all fun f => match f.2 with
    | .str s => (encodeUtf8 s).isSome
    | _ => true

-- decodeUtf8, by a short cut for ASCII.
def sampleDecode (data : Bytes) : Option Str :=
  if data.all (fun b => decide (b.toNat < 128)) then some (data.map fun b => codePoint b.toNat) else decodeUtf8 data

def sampleParse (data : Bytes) : Option Value :=
  match (sampleDecode data).bind loads with
  | some (.obj fields) => if textual fields then some (.obj fields) else none
  | v => v

def truncate : Number.Double → Int
  | .fin neg m e =>
      let n : Int := (Number.Double.mul2 m e / Number.Double.mul2 1 (-e) : Nat)
      if neg then -n else n
  | _ => 0

def sampleNl : Nlohmann where
  parse := sampleParse
  ofDouble := truncate
  boolAsLongLong := true

theorem sampleNl_parse (data : Bytes) : sampleNl.parse data = sampleParse data := rfl

def sampleSsl : OpenSsl where
  bioWrite := Base64Text.bioText
  bioRead := fun text => ((sampleDecode text).bind b64Decode).getD []

theorem toNat_ofNat_ascii {n : Nat} (h : n < 128) : (Char.ofNat n).toNat = n := by
  have hvalid : n.isValidChar := .inl (by omega)
  rw [Char.ofNat, dif_pos hvalid]
  rfl

theorem encode_ascii {data : Bytes} (h : ∀ b ∈ data, b.toNat < 128) :
    encodeUtf8 (data.map fun b => codePoint b.toNat) = some data := by
  have hchars : data.map (fun b => codePoint b.toNat) = (data.map fun b => Char.ofNat b.toNat).map ofChar := by
    rw [List.map_map]
    refine List.map_congr_left fun b hb => Fin.ext ?_
    have hb := h b hb
    change b.toNat % 0x110000 = (Char.ofNat b.toNat).toNat
    rw [toNat_ofNat_ascii hb, Nat.mod_eq_of_lt (by omega)]
  rw [hchars, encodeUtf8, mapM_toChar?.mpr rfl, Option.map_some, Option.some.injEq]
  clear hchars
  induction data with
  | nil => rfl
  | cons b data ih =>
      obtain ⟨hb, hdata⟩ := List.forall_mem_cons.mp h
      have hnat := toNat_ofNat_ascii hb
      rw [List.map_cons, List.flatMap_cons, ih hdata]
      rcases utf8EncodeChar_cases (Char.ofNat b.toNat) with ⟨-, henc⟩ | ⟨hbig, -⟩
      · rw [henc, hnat, UInt8.ofNat_toNat, List.singleton_append]
      · omega

theorem sampleDecode_eq (data : Bytes) : sampleDecode data = decodeUtf8 data := by
  unfold sampleDecode
  split
  · rename_i hall
    exact (decode_encode (encode_ascii fun b hb => of_decide_eq_true (List.all_eq_true.mp hall b hb))).symm
  · rfl

theorem sampleParse_obj {data : Bytes} {fields : List (Str × Value)} : sampleParse data = some (.obj fields) ↔
    (decodeUtf8 data).bind loads = some (.obj fields) ∧ textual fields = true := by
  unfold sampleParse
  rw [sampleDecode_eq]
  cases (decodeUtf8 data).bind loads with
  | none => simp
  | some v =>
      cases v with
      | obj fs =>
          change (if textual fs = true then some (Value.obj fs) else none) = some (.obj fields) ↔ _
          split
          · rename_i htext
            refine ⟨fun h => ⟨h, ?_⟩, And.left⟩
            cases h
            exact htext
          · rename_i htext
            refine iff_of_false (fun h => by cases h) ?_
            rintro ⟨hfields, htext'⟩
            cases hfields
            exact htext htext'
      | _ => simp

theorem sample_fields {text : Str} {data : Bytes} {fields fields' : List (Str × Value)}
    (hdata : encodeUtf8 text = some data) (hloads : loads text = some (.obj fields))
    (hparse : sampleParse data = some (.obj fields')) : fields = fields' := by
  have hread := (sampleParse_obj.mp hparse).1
  rw [decode_encode hdata, Option.bind_some, hloads] at hread
  cases hread
  rfl

theorem sample_standard : StandardJson sampleNl where
  strings hdata hloads hparse key s := by rw [sample_fields hdata hloads hparse]
  keys hdata hloads hparse key := by rw [sample_fields hdata hloads hparse]
  utf8 := by
    intro data fields key s hparse hlook
    have htext := List.all_eq_true.mp (sampleParse_obj.mp hparse).2
    obtain ⟨⟨k, v⟩, hfind, rfl⟩ := Option.map_eq_some_iff.mp hlook
    exact htext _ (List.mem_reverse.mp (List.mem_of_find?_eq_some hfind))

def sampleGuard : ReplayGuard Str := .fresh 300

-- A sender whose clock counts halves of a millisecond; the signature is over the truncated time.
def fractionalText : Str :=
  str "\x7b\"timestamp\":1700000000000.5,\"iv\":\"AAAAAAAAAAAAAAAA\\n\",\"tag\":\"AAAAAAAAAAAAAAAAAAAAAA==\\n\"\x7d"

def fractionalData : Bytes := (encodeUtf8 fractionalText).getD []

def fractionalFields : List (Str × Value) :=
  [(str "timestamp", .float (.ofDecimal false 17000000000005 (-1))),
    (str "iv", .str (b64Encode (List.replicate 12 0))),
    (str "tag", .str (b64Encode (List.replicate 16 0)))]

def fractional : Sealed where
  payload := bytes (buildSigningPayload (CryptoCodec.ofFields sampleNl fractionalFields))
  signature := []
  ciphertext := []
  iv := List.replicate 12 0
  tag := List.replicate 16 0

def fractionalEnvelope : CryptoEnvelope := CryptoCodec.ofFields sampleNl fractionalFields

theorem fractional_read :
    (encodeUtf8 fractionalText = some fractionalData ∧ loads fractionalText = some (.obj fractionalFields) ∧
      textual fractionalFields = true ∧ CryptoCodec.WellTyped sampleNl fractionalFields) ∧
    (ReplayGuard.isWithinWindow sampleGuard 1700000000000 fractionalEnvelope.timestamp = true ∧
      ReplayGuard.isReplay sampleGuard fractionalEnvelope.nonce = false) ∧
    (sampleSsl.base64Decode fractionalEnvelope.signature = fractional.signature ∧
      sampleSsl.base64Decode fractionalEnvelope.ciphertext = fractional.ciphertext ∧
      sampleSsl.base64Decode fractionalEnvelope.iv = fractional.iv ∧
      sampleSsl.base64Decode fractionalEnvelope.tag = fractional.tag) ∧
    ((pyOnly sampleGuard fractional).decrypt (fun _ => []) 1700000000000 1700000000000 fractionalText).1.toOption.map
      (fun r => (r.ok, r.error)) = some (false, some (.signature (.str []))) := by
  decide +kernel

theorem fractional_parse : sampleParse fractionalData = some (.obj fractionalFields) := by
  obtain ⟨⟨hencode, hloads, htext, -⟩, -⟩ := fractional_read
  have hread : (decodeUtf8 fractionalData).bind loads = some (.obj fractionalFields) := by
    rw [decode_encode hencode, Option.bind_some, hloads]
  exact sampleParse_obj.mpr ⟨hread, htext⟩

theorem fractional_ready : CppReady sampleSsl sampleGuard 1700000000000 fractionalEnvelope fractional := by
  obtain ⟨-, ⟨hwindow, hunseen⟩, ⟨hsignature, hciphertext, hiv, htag⟩, -⟩ := fractional_read
  exact ⟨hwindow, hunseen, rfl, hsignature, hciphertext, hiv, htag, by decide, by decide⟩

theorem fractional_disagree :
    Matched sampleGuard (pyOnly sampleGuard fractional) (cppOnly sampleGuard fractional) ∧
      CppAccepts sampleNl sampleSsl (cppOnly sampleGuard fractional) 1700000000000 1700000000000 fractionalData [] ∧
      ((pyOnly sampleGuard fractional).decrypt (fun _ => []) 1700000000000 1700000000000 fractionalText).1.toOption.map
        (fun r => (r.ok, r.error)) = some (false, some (.signature (.str []))) := by
  obtain ⟨⟨-, -, -, htyped⟩, -, -, hrefused⟩ := fractional_read
  refine ⟨matched_only _ _, cppAccepts_iff.mpr ?_, hrefused⟩
  have hparse := (sampleNl_parse fractionalData).trans fractional_parse
  exact ⟨fractionalFields, fractional, hparse, htyped, fractional_ready, only_verifies _ _, only_decrypts _ _ _⟩

theorem agree_iff_fractional :
    Agree (fun _ => []) sampleNl sampleSsl sampleGuard 1700000000000 1700000000000 fractionalText fractionalData ↔
      InStep (fun _ => []) sampleNl sampleSsl sampleGuard 1700000000000 fractionalText fractionalData :=
  agree_iff sample_standard fractional_read.1.1

end Agent.Interop
