import JdRelay.Ws.ManualHandshake

namespace Ws.SameHandshake
open Text Json Crypto Handshake ManualHandshake
open Text.Codecs (loadsBytes loadsBytes_encode)

structure Answer where
  ack : Option Str
  registered : Option (Value × Value)
  deriving DecidableEq

def refusal : Answer := ⟨none, none⟩

def ofSession (session : Session) : Value × Value := (session.init.agentId, session.init.projects)

section Answers

variable (lib : Library) (l : Local)

def handlerAnswer (text : Str) : Answer :=
  let r := doHandshake lib l (some text)
  match r.outcome with
  | .ok session => ⟨r.sent.head?, some (ofSession session)⟩
  | .error _ => refusal

-- Without an event loop nobody is registered.
def manualAnswer (loop : Bool) (data : Bytes) : Answer :=
  match handshake lib l data with
  | .done session ack => ⟨some ack, if loop then some (ofSession session) else none⟩
  | _ => refusal

end Answers

def BothAccept (a b : Answer) : Prop := ∃ ack registered, a = ⟨some ack, some registered⟩ ∧ b = ⟨some ack, some registered⟩

def BothRefuse (a b : Answer) : Prop := a = refusal ∧ b = refusal

def Agree (a b : Answer) : Prop := BothAccept a b ∨ BothRefuse a b

section Condition

variable (lib : Library) (l : Local)

def Accepted (fields : List (Str × Value)) : Prop := ∃ session ack, Handshakes lib l fields session ack

def ackOf : Option Str := do
  let signer ← l.signer.toOption
  let fwdPubPem ← l.fwdPubPem.toOption
  let ackData ← encodeUtf8 (l.ecdh.publicKeyPem ++ str "|" ++ fwdPubPem)
  some (ackJson l.ecdh.publicKeyPem fwdPubPem (signer.sign l.entropy ackData))

def KeysFit : Prop := ∃ ack, ackOf l = some ack ∧ AckFits ack

def accepts (fields : List (Str × Value)) : Bool :=
  match verifyInit lib (ofFields fields) with
  | .ok (verifier, true) => (answer lib l (ofFields fields) verifier).toOption.isSome && l.sends
  | _ => false

variable {lib} {l}

theorem accepted_iff {fields : List (Str × Value)} :
    Accepted lib l fields ↔ Complete fields ∧ accepts lib l fields = true := by
  unfold accepts
  constructor
  · rintro ⟨session, ack, hcomplete, ⟨verifier, hverified, hanswer⟩, hsends⟩
    simp [hcomplete, hverified, hanswer, hsends, Except.toOption]
  · rintro ⟨hcomplete, h⟩
    split at h
    · rename_i verifier hverified
      cases hanswer : answer lib l (ofFields fields) verifier with
      | error e => simp [hanswer, Except.toOption] at h
      | ok out => exact ⟨out.1, out.2, hcomplete, ⟨verifier, hverified, hanswer⟩, ((Bool.and_eq_true _ _).mp h).2⟩
    · cases h

instance (fields : List (Str × Value)) : Decidable (Accepted lib l fields) := decidable_of_iff _ accepted_iff.symm

instance : Decidable (KeysFit l) :=
  decidable_of_iff (((ackOf l).any fun ack => decide (AckFits ack)) = true) (by simp [KeysFit, Option.any_eq_true])

end Condition

section Agreement

variable {lib : Library} {l : Local} {fields : List (Str × Value)} {session : Session} {ack text : Str} {data : Bytes}
  {loop : Bool}

theorem ackOf_eq (h : Handshakes lib l fields session ack) : ackOf l = some ack := by
  obtain ⟨-, ⟨verifier, -, hanswer⟩, -⟩ := h
  simp only [answer, Python.bind_ok, raise_ok, CryptoCodec.utf8_ok] at hanswer
  obtain ⟨sharedSecret, -, signer, hsigner, fwdPubPem, hfwd, ackData, hdata, hanswer⟩ := hanswer
  obtain ⟨-, rfl⟩ := Prod.mk.inj (Except.ok.inj hanswer)
  simp only [ackOf, hsigner, hfwd, Except.toOption, Option.bind_eq_bind, Option.bind_some, hdata]

theorem keysFit_iff (h : Handshakes lib l fields session ack) : KeysFit l ↔ AckFits ack := by
  simp only [KeysFit, ackOf_eq h, Option.some.injEq, exists_eq_left']

theorem handlerAnswer_typed (htyped : Typed text fields) (h : Handshakes lib l fields session ack) :
    handlerAnswer lib l text = ⟨some ack, some (ofSession session)⟩ := by
  simp only [handlerAnswer, doHandshake_of_typed htyped h, List.head?_cons]

theorem handlerAnswer_refused (h : ∀ fields, Typed text fields → ¬ Accepted lib l fields) :
    handlerAnswer lib l text = refusal := by
  unfold handlerAnswer
  cases houtcome : (doHandshake lib l (some text)).outcome with
  | error e => simp only [houtcome]
  | ok session =>
      obtain ⟨fields, ack, htyped, haccepted⟩ := typed_of_doHandshake houtcome
      exact absurd ⟨session, ack, haccepted⟩ (h fields htyped)

theorem manualAnswer_fits (hloads : loadsBytes data = some (.obj fields)) (h : Handshakes lib l fields session ack)
    (hfits : AckFits ack) :
    manualAnswer lib l loop data = ⟨some ack, if loop then some (ofSession session) else none⟩ := by
  simp only [manualAnswer, handshake_done.mpr ⟨fields, hloads, h, hfits⟩]

theorem manualAnswer_refused (h : ∀ fields, loadsBytes data = some (.obj fields) → Accepted lib l fields → ¬ KeysFit l) :
    manualAnswer lib l loop data = refusal := by
  unfold manualAnswer
  split
  · rename_i session ack hdone
    obtain ⟨fields, hloads, haccepted, hfits⟩ := handshake_done.mp hdone
    exact absurd ((keysFit_iff haccepted).mpr hfits) (h fields hloads ⟨session, ack, haccepted⟩)
  · rfl

theorem agree_refusal {b : Answer} : Agree refusal b ↔ b = refusal := by
  constructor
  · rintro (⟨ack, registered, h, -⟩ | ⟨-, h⟩)
    · cases h
    · exact h
  · exact fun h => .inr ⟨rfl, h⟩

theorem agree_accepted {registered : Value × Value} {b : Answer} :
    Agree ⟨some ack, some registered⟩ b ↔ b = ⟨some ack, some registered⟩ := by
  constructor
  · rintro (⟨ack', registered', h, hb⟩ | ⟨h, -⟩)
    · exact hb.trans h.symm
    · cases h
  · exact fun h => .inl ⟨ack, registered, rfl, h⟩

theorem typed_loadsBytes (hdata : encodeUtf8 text = some data) (h : Typed text fields) :
    loadsBytes data = some (.obj fields) := loadsBytes_encode hdata h.loaded

theorem agree_of_handshakes (hloads : loadsBytes data = some (.obj fields)) (hdata : encodeUtf8 text = some data)
    (h : Handshakes lib l fields session ack) :
    Agree (handlerAnswer lib l text) (manualAnswer lib l loop data) ↔
      (Typed text fields ↔ KeysFit l) ∧ (KeysFit l → loop = true) := by
  have hsame : ∀ fields', loadsBytes data = some (.obj fields') → fields' = fields := fun fields' h' => by
    rw [hloads] at h'
    cases h'
    rfl
  by_cases htyped : Typed text fields
  · rw [handlerAnswer_typed htyped h, agree_accepted]
    by_cases hfits : KeysFit l
    · rw [manualAnswer_fits hloads h ((keysFit_iff h).mp hfits)]
      cases loop <;> simp [htyped, hfits]
    · rw [manualAnswer_refused fun _ _ _ => hfits]
      simp [htyped, hfits, refusal]
  · have hrefused : handlerAnswer lib l text = refusal := handlerAnswer_refused fun fields' htyped' _ =>
      htyped (hsame fields' (typed_loadsBytes hdata htyped') ▸ htyped')
    rw [hrefused, agree_refusal]
    by_cases hfits : KeysFit l
    · rw [manualAnswer_fits hloads h ((keysFit_iff h).mp hfits)]
      simp [htyped, hfits, refusal]
    · rw [manualAnswer_refused fun _ _ _ => hfits]
      simp [htyped, hfits]

theorem servers_agree_iff (hdata : encodeUtf8 text = some data) :
    Agree (handlerAnswer lib l text) (manualAnswer lib l loop data) ↔
      ∀ fields, loadsBytes data = some (.obj fields) → Accepted lib l fields →
        (Typed text fields ↔ KeysFit l) ∧ (KeysFit l → loop = true) := by
  constructor
  · rintro hagree fields hloads ⟨session, ack, h⟩
    exact (agree_of_handshakes hloads hdata h).mp hagree
  · intro hall
    by_cases haccepted : ∃ fields, loadsBytes data = some (.obj fields) ∧ Accepted lib l fields
    · obtain ⟨fields, hloads, session, ack, h⟩ := haccepted
      exact (agree_of_handshakes hloads hdata h).mpr (hall fields hloads ⟨session, ack, h⟩)
    · refine .inr ⟨handlerAnswer_refused fun fields htyped h => ?_, manualAnswer_refused fun fields hloads h => ?_⟩
      · exact absurd ⟨fields, typed_loadsBytes hdata htyped, h⟩ haccepted
      · exact absurd ⟨fields, hloads, h⟩ haccepted

end Agreement

section Sample

open Agent.Handshake (pemOf)

def sampleFields (type : String) : List (Str × Value) :=
  [(str "type", .str (str type)),
    (str "agent_id", .str (str "build|7")),
    (str "projects", .arr [.str (str "app")]),
    (str "ecdh_pub_pem", .str (pemOf "ECDH")),
    (str "ecdsa_pub_pem", .str (pemOf "Agent")),
    (str "signature", .str (b64Encode [9]))]

def sampleText (type : String) : Str := dumps (.obj (sampleFields type))

def sampleRegistration : Value × Value := (.str (str "build|7"), .arr [.str (str "app")])

theorem samples_read : KeysFit sampleLocal ∧
    handlerAnswer sampleLibrary sampleLocal (sampleText "HELLO") = refusal ∧
    ∀ type ∈ ["HANDSHAKE_INIT", "HELLO"], Accepted sampleLibrary sampleLocal (sampleFields type) ∧
      (encodeUtf8 (sampleText type)).isSome = true ∧ loads (sampleText type) = some (.obj (sampleFields type)) := by
  decide +kernel

theorem sampleLocal_fits : KeysFit sampleLocal := samples_read.1

theorem sample_accepted (type : String) (h : type ∈ ["HANDSHAKE_INIT", "HELLO"]) :
    Accepted sampleLibrary sampleLocal (sampleFields type) ∧ loads (sampleText type) = some (.obj (sampleFields type)) ∧
      ∃ data, encodeUtf8 (sampleText type) = some data := by
  obtain ⟨haccepted, hsome, hloads⟩ := samples_read.2.2 type h
  exact ⟨haccepted, hloads, Option.isSome_iff_exists.mp hsome⟩

-- A signed init of another type: the manual server alone takes it.
theorem other_type_accepted : ∃ data, encodeUtf8 (sampleText "HELLO") = some data ∧
    handlerAnswer sampleLibrary sampleLocal (sampleText "HELLO") = refusal ∧
      (manualAnswer sampleLibrary sampleLocal true data).registered = some sampleRegistration ∧
        ¬ Agree (handlerAnswer sampleLibrary sampleLocal (sampleText "HELLO"))
          (manualAnswer sampleLibrary sampleLocal true data) := by
  obtain ⟨⟨session, ack, h⟩, hloads, data, hdata⟩ := sample_accepted "HELLO" (by decide)
  have hrefused := samples_read.2.1
  have hmanual : manualAnswer sampleLibrary sampleLocal true data = ⟨some ack, some (ofSession session)⟩ :=
    manualAnswer_fits (loadsBytes_encode hdata hloads) h ((keysFit_iff h).mp sampleLocal_fits)
  refine ⟨data, hdata, hrefused, ?_, ?_⟩
  · rw [hmanual, ofSession, h.init_eq]
    rfl
  · rw [hrefused, agree_refusal, hmanual]
    exact nofun

theorem genuine_both_accept : ∃ data, encodeUtf8 (sampleText "HANDSHAKE_INIT") = some data ∧
    Agree (handlerAnswer sampleLibrary sampleLocal (sampleText "HANDSHAKE_INIT"))
      (manualAnswer sampleLibrary sampleLocal true data) := by
  obtain ⟨-, hloads, data, hdata⟩ := sample_accepted "HANDSHAKE_INIT" (by decide)
  refine ⟨data, hdata, (servers_agree_iff hdata).mpr fun fields hfields _ => ⟨?_, fun _ => rfl⟩⟩
  rw [loadsBytes_encode hdata hloads] at hfields
  cases hfields
  exact iff_of_true ⟨hloads, by decide⟩ sampleLocal_fits

end Sample

end Ws.SameHandshake
