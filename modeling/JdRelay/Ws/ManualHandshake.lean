import JdRelay.Base.Codecs
import JdRelay.Ws.Framing
import JdRelay.Ws.Handshake

namespace Ws.ManualHandshake
open Text Json Crypto Handshake
open Text.Codecs (loadsBytes)

def unknown : Value := .str (str "<unknown>")

def index (fields : List (Str × Value)) (key : String) : Except Python.Error Value :=
  match lookup? fields (str key) with
  | some v => .ok v
  | none => .error .keyError

inductive Exit where
  | raised (agentId : Value)
  | refused (agentId : Value)
  | done (session : Session) (ack : Str)

def writes (l : Local) (json : Str) : Bool := (Sending.frameOf json).isSome && l.sends

variable (lib : Library)

def verifySignature (fields : List (Str × Value)) (agentId : Value) : Except Python.Error (EcdsaSigner × Bool) := do
  let ecdsaPubPem ← index fields "ecdsa_pub_pem"
  let pem ← encodeUtf8Of ecdsaPubPem
  let verifier ← fromPublicKeyData lib pem
  let ecdhPubPem ← index fields "ecdh_pub_pem"
  let sigData := Python.strOf lib.reprOf agentId ++ str "|" ++ Python.strOf lib.reprOf ecdhPubPem ++ str "|" ++
    Python.strOf lib.reprOf ecdsaPubPem
  let signature ← index fields "signature"
  let sig ← CryptoCodec.b64Field signature
  let data ← CryptoCodec.utf8 sigData
  .ok (verifier, verifier.verify data sig)

variable (l : Local)

def sendAck (init : HandshakeInit) (verifier : EcdsaSigner) : Exit :=
  match answer lib l init verifier with
  | .error _ => .raised init.agentId
  | .ok (session, ack) => if writes l ack then .done session ack else .raised init.agentId

-- The fields that the answer and the session take have all been read by then.
def handshakeFields (fields : List (Str × Value)) : Exit :=
  match index fields "agent_id" with
  | .error _ => .raised unknown
  | .ok agentId =>
      match index fields "projects" with
      | .error _ => .raised agentId
      | .ok _ =>
          match verifySignature lib fields agentId with
          | .error _ => .raised agentId
          | .ok (_, false) =>
              if writes l (errorJson "Signature verification failed") then .refused agentId else .raised agentId
          | .ok (verifier, true) => sendAck lib l (ofFields fields) verifier

-- json.loads takes the bytes of the frame; what is no dict has no item "agent_id".
def handshake (initRaw : Bytes) : Exit :=
  match loadsBytes initRaw with
  | some (.obj fields) => handshakeFields lib l fields
  | _ => .raised unknown

def Complete (fields : List (Str × Value)) : Prop := ∀ key ∈ required, (lookup? fields (str key)).isSome

structure Handshakes (fields : List (Str × Value)) (session : Session) (ack : Str) : Prop where
  complete : Complete fields
  answered : ∃ verifier, verifyInit lib (ofFields fields) = .ok (verifier, true) ∧
    answer lib l (ofFields fields) verifier = .ok (session, ack)
  sends : l.sends = true

def AckFits (ack : Str) : Prop := ∃ data, encodeUtf8 ack = some data ∧ data.length < 65536

instance (fields : List (Str × Value)) : Decidable (Complete fields) := inferInstanceAs (Decidable (∀ key ∈ required, _))

instance (ack : Str) : Decidable (AckFits ack) :=
  decidable_of_iff (((encodeUtf8 ack).any fun data => decide (data.length < 65536)) = true)
    (by simp [AckFits, Option.any_eq_true])

structure Typed (text : Str) (fields : List (Str × Value)) : Prop where
  loaded : loads text = some (.obj fields)
  type : Python.get fields "type" .null = .str (str "HANDSHAKE_INIT")

section Spec

variable {lib} {l} {fields : List (Str × Value)} {session : Session} {ack : Str}

theorem index_ok {key : String} {v : Value} : index fields key = .ok v ↔ lookup? fields (str key) = some v := by
  unfold index
  cases lookup? fields (str key) <;> simp

theorem get_of_index {key : String} {v : Value} (h : index fields key = .ok v) : Python.get fields key .null = v := by
  rw [Python.get, index_ok.mp h, Option.getD_some]

theorem index_of_isSome {key : String} (h : (lookup? fields (str key)).isSome) :
    index fields key = .ok (Python.get fields key .null) := by
  obtain ⟨v, hv⟩ := Option.isSome_iff_exists.mp h
  rw [index_ok, Python.get, hv, Option.getD_some]

theorem isSome_of_index {key : String} {v : Value} (h : index fields key = .ok v) :
    (lookup? fields (str key)).isSome :=
  Option.isSome_iff_exists.mpr ⟨v, index_ok.mp h⟩

theorem complete_iff : Complete fields ↔ (lookup? fields (str "agent_id")).isSome ∧
    (lookup? fields (str "projects")).isSome ∧ (lookup? fields (str "ecdh_pub_pem")).isSome ∧
      (lookup? fields (str "ecdsa_pub_pem")).isSome ∧ (lookup? fields (str "signature")).isSome := by
  simp [Complete, required]

theorem verifySignature_ok {out : EcdsaSigner × Bool} :
    verifySignature lib fields (ofFields fields).agentId = .ok out ↔
      ((lookup? fields (str "ecdh_pub_pem")).isSome ∧ (lookup? fields (str "ecdsa_pub_pem")).isSome ∧
        (lookup? fields (str "signature")).isSome) ∧ verifyInit lib (ofFields fields) = .ok out := by
  simp only [verifySignature, verifyInit, Python.bind_ok, raise_ok]
  constructor
  · rintro ⟨ecdsaPubPem, hecdsa, pem, hpem, verifier, hverifier, ecdhPubPem, hecdh, signature, hsignature, sig, hsig,
      data, hdata, hout⟩
    refine ⟨⟨isSome_of_index hecdh, isSome_of_index hecdsa, isSome_of_index hsignature⟩, pem, ?_, verifier, hverifier,
      sig, ?_, data, ?_, congrArg Except.ok (Except.ok.inj hout)⟩
    · rwa [ofFields, get_of_index hecdsa]
    · rwa [ofFields, get_of_index hsignature]
    · rwa [signingData, ofFields, get_of_index hecdh, get_of_index hecdsa]
  · rintro ⟨⟨hecdh, hecdsa, hsignature⟩, pem, hpem, verifier, hverifier, sig, hsig, data, hdata, hout⟩
    exact ⟨_, index_of_isSome hecdsa, pem, hpem, verifier, hverifier, _, index_of_isSome hecdh, _,
      index_of_isSome hsignature, sig, hsig, data, hdata, congrArg Except.ok (Except.ok.inj hout)⟩

theorem Handshakes.init_eq (h : Handshakes lib l fields session ack) : session.init = ofFields fields := by
  obtain ⟨-, ⟨verifier, -, hanswer⟩, -⟩ := h
  exact (answer_ok hanswer).1

theorem frameOf_isSome {json : Str} : (Sending.frameOf json).isSome ↔ AckFits json := by
  rw [Sending.frameOf, AckFits, Option.isSome_bind]
  cases encodeUtf8 json with
  | none => simp
  | some data =>
      by_cases hshort : data.length < 65536
      · simp [Framing.sendFrame_short hshort, hshort]
      · simp [Framing.sendFrame_long (Nat.not_lt.mp hshort), hshort]

theorem writes_iff {json : Str} : writes l json = true ↔ AckFits json ∧ l.sends = true := by
  rw [writes, Bool.and_eq_true, frameOf_isSome]

theorem sendAck_done {init : HandshakeInit} {verifier : EcdsaSigner} :
    sendAck lib l init verifier = .done session ack ↔
      answer lib l init verifier = .ok (session, ack) ∧ AckFits ack ∧ l.sends = true := by
  unfold sendAck
  cases hanswer : answer lib l init verifier with
  | error e => simp
  | ok out =>
      obtain ⟨session', ack'⟩ := out
      by_cases hwrites : writes l ack' = true
      · simp only [hwrites, if_true, Exit.done.injEq, Except.ok.injEq, Prod.mk.injEq]
        constructor
        · rintro ⟨rfl, rfl⟩
          exact ⟨⟨rfl, rfl⟩, writes_iff.mp hwrites⟩
        · exact fun h => h.1
      · simp only [hwrites, Bool.false_eq_true, if_false, reduceCtorEq, Except.ok.injEq, Prod.mk.injEq, false_iff]
        rintro ⟨⟨rfl, rfl⟩, hfits⟩
        exact hwrites (writes_iff.mpr hfits)

theorem handshakeFields_done : handshakeFields lib l fields = .done session ack ↔
    Handshakes lib l fields session ack ∧ AckFits ack := by
  unfold handshakeFields
  constructor
  · intro h
    split at h
    · cases h
    · rename_i agentId hagentId
      split at h
      · cases h
      · rename_i projects hprojects
        have hagent : (ofFields fields).agentId = agentId := get_of_index hagentId
        rw [← hagent] at h
        split at h
        · cases h
        · split_ifs at h
        · rename_i verifier hverify
          obtain ⟨hkeys, hverified⟩ := verifySignature_ok.mp hverify
          obtain ⟨hanswer, hfits, hsends⟩ := sendAck_done.mp h
          exact ⟨⟨complete_iff.mpr ⟨isSome_of_index hagentId, isSome_of_index hprojects, hkeys⟩,
            ⟨verifier, hverified, hanswer⟩, hsends⟩, hfits⟩
  · rintro ⟨⟨hcomplete, ⟨verifier, hverified, hanswer⟩, hsends⟩, hfits⟩
    obtain ⟨hagentId, hprojects, hkeys⟩ := complete_iff.mp hcomplete
    have hverify : verifySignature lib fields (Python.get fields "agent_id" .null) = .ok (verifier, true) :=
      verifySignature_ok.mpr ⟨hkeys, hverified⟩
    simp only [index_of_isSome hagentId, index_of_isSome hprojects, hverify]
    exact sendAck_done.mpr ⟨hanswer, hfits, hsends⟩

theorem handshake_done {initRaw : Bytes} : handshake lib l initRaw = .done session ack ↔
    ∃ fields, loadsBytes initRaw = some (.obj fields) ∧ Handshakes lib l fields session ack ∧ AckFits ack := by
  unfold handshake
  constructor
  · intro h
    split at h
    · rename_i fields hloads
      exact ⟨fields, hloads, handshakeFields_done.mp h⟩
    · cases h
  · rintro ⟨fields, hloads, h⟩
    rw [hloads]
    exact handshakeFields_done.mpr h

theorem requireFields_ok {keys : List String} : requireFields (.obj fields) keys = .ok () ↔
    ∀ key ∈ keys, (lookup? fields (str key)).isSome := by
  induction keys with
  | nil => simp [requireFields]
  | cons key keys ih =>
      simp only [requireFields, isIn, raise, Python.bind_ok, Except.ok.injEq, exists_eq_left', List.forall_mem_cons]
      cases hkey : (lookup? fields (str key)).isSome with
      | true => simpa using ih
      | false => simp

theorem parseHandshakeInit_ok {reprOf : Value → Str} {text : Str} {init : HandshakeInit} :
    parseHandshakeInit reprOf text = .ok init ↔ ∃ fields, Typed text fields ∧ Complete fields ∧ init = ofFields fields := by
  unfold parseHandshakeInit
  constructor
  · intro h
    split at h
    · cases h
    · rename_i j hloads
      rw [Python.bind_ok] at h
      obtain ⟨_, hrequired, h⟩ := h
      split at h
      · rename_i fields
        simp only [ne_eq, ite_not] at h
        split_ifs at h with htype
        cases h
        exact ⟨fields, ⟨hloads, htype⟩, requireFields_ok.mp hrequired, rfl⟩
      · cases h
  · rintro ⟨fields, ⟨hloads, htype⟩, hcomplete, rfl⟩
    have hrequired : requireFields (.obj fields) required = .ok () := requireFields_ok.mpr hcomplete
    simp only [hloads, hrequired, htype, ne_eq, not_true, if_false]
    rfl

theorem doHandshake_of_typed {text : Str} (htyped : Typed text fields) (h : Handshakes lib l fields session ack) :
    doHandshake lib l (some text) = ⟨.ok session, [ack]⟩ := by
  obtain ⟨hcomplete, ⟨verifier, hverified, hanswer⟩, hsends⟩ := h
  have hparse : parseHandshakeInit lib.reprOf text = .ok (ofFields fields) :=
    parseHandshakeInit_ok.mpr ⟨fields, htyped, hcomplete, rfl⟩
  simp only [doHandshake, hparse, hverified, hanswer, hsends, if_true]

theorem typed_of_doHandshake {text : Str} (h : (doHandshake lib l (some text)).outcome = .ok session) :
    ∃ fields ack, Typed text fields ∧ Handshakes lib l fields session ack := by
  obtain ⟨text', init, verifier, ack, htext, hparse, hverified, hanswer, hsends⟩ := answered_of_doHandshake h
  cases htext
  obtain ⟨fields, htyped, hcomplete, rfl⟩ := parseHandshakeInit_ok.mp hparse
  exact ⟨fields, ack, htyped, hcomplete, ⟨verifier, hverified, hanswer⟩, hsends⟩

end Spec

end Ws.ManualHandshake
