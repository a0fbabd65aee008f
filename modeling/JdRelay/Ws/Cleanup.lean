import JdRelay.Ws.Registration

namespace Ws.Cleanup
open Text Json Runs Handshake Registration
open Python (DictKey dictKey)

variable {H : Type}

def Holds (k : DictKey) : Phase → Prop
  | .looping init => dictKey init.agentId = some k
  | .closing (some init) => dictKey init.agentId = some k
  | .ended => True
  | _ => False

structure Registered (s : State H) : Prop where
  own : ∀ k info, s.manager.getByAgent k = some info → Holds k (s.phase info.send)
  stopped : s.manager.stopped = true → s.manager.byAgent = ∅

def NoGhost (s : State H) : Prop :=
  s.manager.stopped = false → ∀ h, s.phase h = .ended → ∀ k info, s.manager.getByAgent k = some info → info.send ≠ h

def RemovesOwn (s : State H) : Event H → Prop
  | .removeAgent h => s.manager.stopped = false → ∀ init k, s.phase h = .closing (some init) →
      dictKey init.agentId = some k → (s.manager.getByAgent k).map (·.send) = some h → removable k = true
  | _ => True

variable {s t : State H}

theorem getByAgent_unregister (hrun : s.manager.stopped = false) (init : Option HandshakeInit) (k : DictKey) :
    (unregister s.manager init).getByAgent k =
      if (init.bind fun init => dictKey init.agentId) = some k ∧ removable k = true then none
      else s.manager.getByAgent k := by
  unfold unregister
  cases hkey : init.bind fun init => dictKey init.agentId with
  | none => simp
  | some own =>
      by_cases hremovable : removable own = true
      · simp only [hremovable, if_true, AgentManager.getByAgent_removeAgent hrun, Option.some.injEq]
        by_cases heq : k = own
        · simp [heq, hremovable]
        · simp [heq, Ne.symm heq]
      · simp only [hremovable, Bool.false_eq_true, if_false, Option.some.injEq]
        rw [if_neg]
        rintro ⟨rfl, h⟩
        exact hremovable h

theorem stopped_unregister (m : AgentManager DictKey H) (init : Option HandshakeInit) :
    (unregister m init).stopped = m.stopped := by
  unfold unregister
  split
  · rfl
  · split
    · exact AgentManager.stopped_removeAgent _ _
    · rfl

theorem byAgent_unregister {m : AgentManager DictKey H} (hempty : m.byAgent = ∅) (hstopped : m.stopped = true)
    (init : Option HandshakeInit) : (unregister m init).byAgent = ∅ := by
  unfold unregister
  split
  · exact hempty
  · split
    · rw [AgentManager.removeAgent, if_pos hstopped]
      exact hempty
    · exact hempty

variable [DecidableEq H] {lib : Library} {e : Event H}

theorem registered_goto (hs : Registered s) {h : H} {p : Phase} (hp : ∀ k, Holds k (s.phase h) → Holds k p) :
    Registered (s.goto h p) where
  own k info hinfo := by
    have hold := hs.own k info hinfo
    simp only [State.goto]
    rcases eq_or_ne info.send h with rfl | hne
    · rw [Function.update_self]
      exact hp k hold
    · rwa [Function.update_of_ne hne]
  stopped := hs.stopped

theorem registered_register (hs : Registered s) (hrun : s.manager.stopped = false) {h : H} {init : HandshakeInit}
    {entry : Entry} (hphase : s.phase h = .handshaken init) (hentry : entryOf init = some entry) :
    Registered (s.register h init entry) where
  own k info hinfo := by
    have hkey : dictKey init.agentId = some entry.agentId := by
      simp only [entryOf, Option.bind_eq_bind, Option.bind_eq_some_iff] at hentry
      obtain ⟨projects, -, agentId, hagent, hentry⟩ := hentry
      cases hentry
      exact hagent
    simp only [State.register] at hinfo ⊢
    rw [AgentManager.getByAgent_addAgent hrun] at hinfo
    split at hinfo
    · rename_i heq
      cases hinfo
      rw [Function.update_self, heq]
      split <;> exact hkey
    · have hold := hs.own k info hinfo
      rcases eq_or_ne info.send h with rfl | hne
      · rw [hphase] at hold
        exact hold.elim
      · rwa [Function.update_of_ne hne]
  stopped hstopped := by
    rw [State.register, AgentManager.stopped_addAgent, hrun] at hstopped
    cases hstopped

theorem registered_unregister (hs : Registered s) {h : H} {init : Option HandshakeInit} :
    Registered { s.goto h .ended with manager := unregister s.manager init } where
  own k info hinfo := by
    have hended : Registered (s.goto h .ended) := registered_goto hs fun _ _ => trivial
    cases hrun : s.manager.stopped with
    | true =>
        have hempty := byAgent_unregister (hs.stopped hrun) hrun init
        simp only [AgentManager.getByAgent, hempty] at hinfo
        cases hinfo
    | false =>
        change (unregister s.manager init).getByAgent k = some info at hinfo
        rw [getByAgent_unregister hrun] at hinfo
        split at hinfo
        · cases hinfo
        · exact hended.own k info hinfo
  stopped hstopped := by
    change (unregister s.manager init).stopped = true at hstopped
    rw [stopped_unregister] at hstopped
    exact byAgent_unregister (hs.stopped hstopped) hstopped init

theorem holds_leave {p q : Phase} (hq : leave p = some q) {k : DictKey} (hk : Holds k p) : Holds k q := by
  cases p with
  | looping init =>
      cases hq
      exact hk
  | handshaking => exact hk.elim
  | handshaken init => exact hk.elim
  | closing init => cases hq
  | ended => cases hq

theorem registered_step (hs : Registered s) (h : step lib s e = some t) : Registered t := by
  have hnone : ∀ {i : H} {p : Phase} {k : DictKey}, (∀ k, ¬ Holds k (s.phase i)) → Holds k (s.phase i) → Holds k p :=
    fun hno hk => (hno _ hk).elim
  cases moves_of_step h with
  | @accept i l raw session hphase hdone =>
      have hgoto : Registered (s.goto i (.handshaken session.init)) :=
        registered_goto hs fun k => hnone fun k hk => by rwa [hphase] at hk
      exact ⟨hgoto.own, hgoto.stopped⟩
  | refuse hphase => exact registered_goto hs fun k => hnone fun k hk => by rwa [hphase] at hk
  | pass hphase => exact registered_goto hs fun k => hnone fun k hk => by rwa [hphase] at hk
  | fail hphase => exact registered_goto hs fun k => hnone fun k hk => by rwa [hphase] at hk
  | register hphase hrun hentry => exact registered_register hs hrun hphase hentry
  | leave hp => exact registered_goto hs fun k => holds_leave hp
  | remove => exact registered_unregister hs
  | stop => exact ⟨fun k info hinfo => (by cases hinfo), fun _ => rfl⟩

theorem noGhost_goto (hP : NoGhost s) {h : H} {p : Phase} (hp : p ≠ .ended) : NoGhost (s.goto h p) := by
  intro hrun i hended k info hinfo
  refine hP hrun i ?_ k info hinfo
  simp only [State.goto] at hended
  rcases eq_or_ne i h with rfl | hne
  · rw [Function.update_self] at hended
    exact absurd hended hp
  · rwa [Function.update_of_ne hne] at hended

theorem noGhost_register (hP : NoGhost s) (hrun : s.manager.stopped = false) {h : H} {init : HandshakeInit}
    {entry : Entry} : NoGhost (s.register h init entry) := by
  intro _ i hended k info hinfo
  have hne : i ≠ h := by
    rintro rfl
    simp only [State.register, Function.update_self] at hended
    split at hended <;> cases hended
  simp only [State.register, Function.update_of_ne hne] at hended
  simp only [State.register] at hinfo
  rw [AgentManager.getByAgent_addAgent hrun] at hinfo
  split at hinfo
  · cases hinfo
    exact hne.symm
  · exact hP hrun i hended k info hinfo

theorem noGhost_unregister (hs : Registered s) (hP : NoGhost s) {h : H} {init : Option HandshakeInit}
    (hphase : s.phase h = .closing init) :
    NoGhost { s.goto h .ended with manager := unregister s.manager init } ↔ RemovesOwn s (.removeAgent h) := by
  constructor
  · intro hclean hrun init' k hphase' hkey hown
    cases hphase.symm.trans hphase'
    by_contra hnot
    obtain ⟨info, hinfo, rfl⟩ := Option.map_eq_some_iff.mp hown
    have hrun' : (unregister s.manager (some init')).stopped = false := by rw [stopped_unregister, hrun]
    refine hclean hrun' info.send (Function.update_self ..) k info ?_ rfl
    change (unregister s.manager (some init')).getByAgent k = some info
    rw [getByAgent_unregister hrun, if_neg fun hremoved => hnot hremoved.2, hinfo]
  · intro howns hrun' i hended k info hinfo
    have hrun : s.manager.stopped = false := by rwa [← stopped_unregister s.manager init]
    change (unregister s.manager init).getByAgent k = some info at hinfo
    rw [getByAgent_unregister hrun] at hinfo
    split at hinfo
    · cases hinfo
    · rename_i hkept
      rcases eq_or_ne i h with rfl | hne
      · rintro rfl
        have hheld := hs.own k info hinfo
        rw [hphase] at hheld
        cases init with
        | none => exact hheld
        | some init => exact hkept ⟨hheld, howns hrun init k hphase hheld (by rw [hinfo]; rfl)⟩
      · refine hP hrun i ?_ k info hinfo
        simpa only [State.goto, Function.update_of_ne hne] using hended

theorem noGhost_step (hs : Registered s) (hP : NoGhost s) (h : step lib s e = some t) :
    NoGhost t ↔ RemovesOwn s e := by
  cases moves_of_step h with
  | @accept i l raw session hphase hdone =>
      have hgoto : NoGhost (s.goto i (.handshaken session.init)) := noGhost_goto hP (by simp)
      exact iff_of_true hgoto trivial
  | refuse => exact iff_of_true (noGhost_goto hP (by simp)) trivial
  | pass => exact iff_of_true (noGhost_goto hP (by simp)) trivial
  | fail => exact iff_of_true (noGhost_goto hP (by simp)) trivial
  | register hphase hrun => exact iff_of_true (noGhost_register hP hrun) trivial
  | leave hp =>
      refine iff_of_true (noGhost_goto hP ?_) trivial
      rintro rfl
      cases hphase : s.phase _ <;> rw [hphase] at hp <;> cases hp
  | remove hphase => exact noGhost_unregister hs hP hphase
  | stop => exact iff_of_true (fun hrun => by cases hrun) trivial

theorem no_ghost_iff {es : List (Event H)} (hrun : (machine lib).IsRun es) :
    (machine lib).Always NoGhost (machine lib).init es ↔
      (machine lib).Guarded RemovesOwn (machine lib).init es := by
  have hregistered : Registered (machine lib : Machine (State H) (Event H)).init :=
    ⟨fun k info hinfo => (by cases hinfo), fun hstopped => (by cases hstopped)⟩
  have hclean : NoGhost (machine lib : Machine (State H) (Event H)).init := fun _ _ _ k info hinfo => by cases hinfo
  exact (machine lib).always_iff_guarded (I := Registered) registered_step noGhost_step hregistered hclean hrun

section Sample

def namelessText : Str :=
  initText [] [str "app"] (Agent.Handshake.pemOf "ECDH") (Agent.Handshake.pemOf "Mallory") [8]

def wholeRun (raw : Str) : List (Event Unit) :=
  [.handshake () sampleLocal (some raw), .addAgent (), .disconnect (), .removeAgent ()]

theorem nameless_stays :
    (machine sampleLibrary).IsRun (wholeRun namelessText) ∧
      ¬ (machine sampleLibrary).Always NoGhost (machine sampleLibrary).init (wholeRun namelessText) := by
  refine ⟨by decide +kernel, fun h => ?_⟩
  have hleft : ((machine sampleLibrary).exec (machine sampleLibrary).init (wholeRun namelessText)).map
      (fun s => (s.manager.stopped, decide (s.phase () = .ended), (s.manager.getByAgent (.str [])).map (·.send))) =
        some (false, true, some ()) := by decide +kernel
  obtain ⟨t, ht, hfacts⟩ := Option.map_eq_some_iff.mp hleft
  simp only [Prod.mk.injEq, decide_eq_true_eq] at hfacts
  obtain ⟨hrun, hended, hget⟩ := hfacts
  obtain ⟨info, hinfo, hsend⟩ := Option.map_eq_some_iff.mp hget
  exact (machine sampleLibrary).always_exec h ht hrun () hended (.str []) info hinfo hsend

theorem genuine_removed :
    (machine sampleLibrary).Always NoGhost (machine sampleLibrary).init (wholeRun genuineText) ↔
      (machine sampleLibrary).Guarded RemovesOwn (machine sampleLibrary).init (wholeRun genuineText) :=
  no_ghost_iff (by decide +kernel)

end Sample

end Ws.Cleanup
