import JdRelay.Base.Runs
import JdRelay.Base.Text
import JdRelay.Agent.ReplayGuard

namespace Replay
open Crypto Runs

inductive Side where
  | forwarder
  | agent

namespace Side

variable {N : Type} [DecidableEq N]

def check : Side → ReplayGuard N → Int → Int → Int → Int → N → Bool × ReplayGuard N
  | forwarder, g => g.checkAndRecord
  | agent, g => Agent.ReplayGuard.checkAndRecord g

def purge : Side → ReplayGuard N → Int → ReplayGuard N
  | forwarder, g => g.purgeExpired
  | agent, g => Agent.ReplayGuard.purgeExpired g

def accepts (g : ReplayGuard N) (now timestamp : Int) (nonce : N) : Bool :=
  g.isWithinWindow now timestamp && !g.isReplay nonce

def afterRecord (side : Side) (g : ReplayGuard N) (now₂ now₃ : Int) (nonce : N) : ReplayGuard N :=
  if ReplayGuard.purgeLimit < (g.recordNonce now₂ nonce).cacheSize then side.purge (g.recordNonce now₂ nonce) now₃
  else g.recordNonce now₂ nonce

@[simp] theorem windowMs_purge (side : Side) (g : ReplayGuard N) (now : Int) :
    (side.purge g now).windowMs = g.windowMs := by cases side <;> rfl

theorem lookup_purge (side : Side) (g : ReplayGuard N) (now : Int) (n : N) :
    (side.purge g now).nonces.lookup n = (g.nonces.lookup n).filter (fun e => decide (now ≤ e)) := by
  cases side with
  | forwarder => exact g.lookup_purgeExpired now n
  | agent => exact (Agent.ReplayGuard.lookup_purgeExpired g now n).trans (g.lookup_purgeExpired now n)

theorem mem_purge (side : Side) {g : ReplayGuard N} {now : Int} {n : N} :
    n ∈ (side.purge g now).nonces ↔ ∃ e, g.nonces.lookup n = some e ∧ now ≤ e := by
  rw [← AList.lookup_isSome, lookup_purge, Option.isSome_iff_exists]
  simp [Option.filter_eq_some_iff]

theorem check_eq (side : Side) (g : ReplayGuard N) (now₁ now₂ now₃ ts : Int) (n : N) :
    side.check g now₁ now₂ now₃ ts n =
      if accepts g now₁ ts n then (true, side.afterRecord g now₂ now₃ n) else (false, g) := by
  have hagent : Agent.ReplayGuard.checkAndRecord g now₁ now₂ now₃ ts n =
      if accepts g now₁ ts n then (true, agent.afterRecord g now₂ now₃ n) else (false, g) := by
    rw [Agent.ReplayGuard.checkAndRecord, Agent.ReplayGuard.isReplay_eq, accepts,
      show Agent.ReplayGuard.isWithinWindow g now₁ ts = g.isWithinWindow now₁ ts from rfl]
    by_cases hw : g.isWithinWindow now₁ ts = true
    · by_cases hr : g.isReplay n = true
      · simp only [hw, hr, Bool.not_true, Bool.and_false, Bool.false_eq_true, if_false, if_true]
      · simp only [hw, hr, Bool.not_true, Bool.false_eq_true, if_false, Bool.true_and, Bool.not_false, if_true]
        exact (apply_ite (Prod.mk true) _ _ _).symm
    · simp only [hw, Bool.not_false, Bool.false_and, Bool.false_eq_true, if_false, if_true]
  have hforwarder : g.checkAndRecord now₁ now₂ now₃ ts n =
      if accepts g now₁ ts n then (true, forwarder.afterRecord g now₂ now₃ n) else (false, g) := by
    rw [ReplayGuard.checkAndRecord, accepts]
    by_cases hw : g.isWithinWindow now₁ ts = true
    · by_cases hr : g.isReplay n = true
      · simp only [hw, hr, Bool.not_true, Bool.and_false, Bool.false_eq_true, if_false, if_true]
      · simp only [hw, hr, Bool.not_true, Bool.false_eq_true, if_false, Bool.true_and, Bool.not_false, if_true]
        rfl
    · simp only [hw, Bool.not_false, Bool.false_and, Bool.false_eq_true, if_false, if_true]
  cases side with
  | forwarder => exact hforwarder
  | agent => exact hagent

theorem accepts_iff {g : ReplayGuard N} {now ts : Int} {n : N} :
    accepts g now ts n = true ↔ now - g.windowMs ≤ ts ∧ ts ≤ now + g.windowMs ∧ n ∉ g.nonces := by
  simp only [accepts, Bool.and_eq_true, Bool.not_eq_true', ReplayGuard.isWithinWindow_iff, and_assoc,
    ← ReplayGuard.isReplay_iff, Bool.not_eq_true]

end Side

variable {N : Type}

structure State (N : Type) where
  guard : ReplayGuard N
  now : Int
  accepted : List (Int × N)

-- A clock reading that a call does not make repeats the one before it.
inductive Call (N : Type) where
  | checkAndRecord (timestamp : Int) (nonce : N) (now₁ now₂ now₃ : Int)
  | purgeExpired (now : Int)

def InWindow (s : State N) : Prop := ∀ a ∈ s.accepted, a.1 ≤ s.now + s.guard.windowMs

def Covered (g : ReplayGuard N) (accepted : List (Int × N)) (now : Int) : Prop :=
  ∀ a ∈ accepted, a.2 ∈ g.nonces ∨ a.1 < now - g.windowMs

theorem Covered.later {g : ReplayGuard N} {accepted : List (Int × N)} {now now' : Int} (h : Covered g accepted now)
    (hle : now ≤ now') : Covered g accepted now' := fun a ha => (h a ha).imp id fun hold => by omega

variable [DecidableEq N]

def step (side : Side) (s : State N) : Call N → Option (State N)
  | .checkAndRecord ts n now₁ now₂ now₃ =>
      if s.now ≤ now₁ ∧ now₁ ≤ now₂ ∧ now₂ ≤ now₃ then
        let (fresh, g) := side.check s.guard now₁ now₂ now₃ ts n
        some ⟨g, now₃, if fresh then (ts, n) :: s.accepted else s.accepted⟩
      else none
  | .purgeExpired now =>
      if s.now ≤ now then some ⟨side.purge s.guard now, now, s.accepted⟩ else none

def machine (side : Side) (windowSeconds start : Int) : Machine (State N) (Call N) where
  init := ⟨.fresh windowSeconds, start, []⟩
  step := step side

def Refuses (side : Side) (s : State N) : Prop :=
  ∀ a ∈ s.accepted, ∀ now₁ now₂ now₃, s.now ≤ now₁ → (side.check s.guard now₁ now₂ now₃ a.1 a.2).1 = false

def Kept (g : ReplayGuard N) (accepted : List (Int × N)) (now : Int) : Prop :=
  ∀ a ∈ accepted, now - g.windowMs ≤ a.1 → ∀ expiry, g.nonces.lookup a.2 = some expiry → now ≤ expiry

def PurgesOnlyClosed (s : State N) : Call N → Prop
  | .checkAndRecord ts n now₁ now₂ now₃ => Side.accepts s.guard now₁ ts n = true →
      ReplayGuard.purgeLimit < (s.guard.recordNonce now₂ n).cacheSize →
      Kept (s.guard.recordNonce now₂ n) ((ts, n) :: s.accepted) now₃
  | .purgeExpired now => Kept s.guard s.accepted now

theorem refuses_iff {side : Side} {s : State N} (hs : InWindow s) :
    Refuses side s ↔ Covered s.guard s.accepted s.now := by
  constructor
  · intro h a ha
    by_contra hopen
    push Not at hopen
    have hfalse := h a ha s.now s.now s.now le_rfl
    rw [Side.check_eq, if_pos (Side.accepts_iff.mpr ⟨hopen.2, hs a ha, hopen.1⟩)] at hfalse
    cases hfalse
  · intro h a ha now₁ now₂ now₃ hnow
    rw [Side.check_eq, if_neg]
    intro hacc
    obtain ⟨hlo, -, hn⟩ := Side.accepts_iff.mp hacc
    rcases h a ha with hmem | hold
    · exact hn hmem
    · omega

theorem covered_purge {side : Side} {g : ReplayGuard N} {accepted : List (Int × N)} {now now' : Int}
    (h : Covered g accepted now) (hle : now ≤ now') :
    Covered (side.purge g now') accepted now' ↔ Kept g accepted now' := by
  constructor
  · intro hc a ha hopen expiry hexp
    rcases hc a ha with hmem | hold
    · obtain ⟨e, he, hle'⟩ := side.mem_purge.mp hmem
      rw [hexp] at he
      cases he
      exact hle'
    · rw [Side.windowMs_purge] at hold
      omega
  · intro hk a ha
    rw [Side.windowMs_purge, side.mem_purge]
    by_cases hopen : now' - g.windowMs ≤ a.1
    · rcases h a ha with hmem | hold
      · obtain ⟨e, he⟩ := Option.isSome_iff_exists.mp (AList.lookup_isSome.mpr hmem)
        exact .inl ⟨e, he, hk a ha hopen e he⟩
      · omega
    · exact .inr (by omega)

theorem covered_record {g : ReplayGuard N} {accepted : List (Int × N)} {now : Int} (h : Covered g accepted now)
    (now₂ ts : Int) (n : N) : Covered (g.recordNonce now₂ n) ((ts, n) :: accepted) now := by
  intro a ha
  rcases List.mem_cons.mp ha with rfl | ha
  · exact .inl (ReplayGuard.mem_recordNonce.mpr (.inl rfl))
  · exact (h a ha).imp (fun hmem => ReplayGuard.mem_recordNonce.mpr (.inr hmem)) id

theorem step_check {side : Side} {s t : State N} {ts now₁ now₂ now₃ : Int} {n : N}
    (h : step side s (.checkAndRecord ts n now₁ now₂ now₃) = some t) :
    (s.now ≤ now₁ ∧ now₁ ≤ now₂ ∧ now₂ ≤ now₃) ∧
    ((Side.accepts s.guard now₁ ts n = true ∧ t = ⟨side.afterRecord s.guard now₂ now₃ n, now₃, (ts, n) :: s.accepted⟩) ∨
      (¬ Side.accepts s.guard now₁ ts n = true ∧ t = ⟨s.guard, now₃, s.accepted⟩)) := by
  simp only [step] at h
  split at h
  · rename_i hclock
    refine ⟨hclock, ?_⟩
    rw [Side.check_eq] at h
    by_cases hacc : Side.accepts s.guard now₁ ts n = true
    · exact .inl ⟨hacc, by simpa [hacc] using h.symm⟩
    · exact .inr ⟨hacc, by simpa [hacc] using h.symm⟩
  · cases h

theorem step_purge {side : Side} {s t : State N} {now : Int} (h : step side s (.purgeExpired now) = some t) :
    s.now ≤ now ∧ t = ⟨side.purge s.guard now, now, s.accepted⟩ := by
  simp only [step] at h
  split at h
  · exact ⟨‹_›, (Option.some.inj h).symm⟩
  · cases h

@[simp] theorem windowMs_afterRecord (side : Side) (g : ReplayGuard N) (now₂ now₃ : Int) (n : N) :
    (side.afterRecord g now₂ now₃ n).windowMs = g.windowMs := by
  unfold Side.afterRecord
  split
  · rw [Side.windowMs_purge, ReplayGuard.windowMs_recordNonce]
  · rw [ReplayGuard.windowMs_recordNonce]

theorem inWindow_step {side : Side} {s t : State N} {e : Call N} (hs : InWindow s)
    (h : step side s e = some t) : InWindow t := by
  cases e with
  | checkAndRecord ts n now₁ now₂ now₃ =>
      obtain ⟨hclock, ⟨hacc, rfl⟩ | ⟨-, rfl⟩⟩ := step_check h
      · intro a ha
        simp only [windowMs_afterRecord]
        rcases List.mem_cons.mp ha with rfl | ha
        · have := (Side.accepts_iff.mp hacc).2.1
          change ts ≤ _
          omega
        · have := hs a ha
          omega
      · intro a ha
        have := hs a ha
        change a.1 ≤ now₃ + s.guard.windowMs
        omega
  | purgeExpired now =>
      obtain ⟨hle, rfl⟩ := step_purge h
      intro a ha
      have := hs a ha
      simp only [Side.windowMs_purge]
      omega

theorem covered_step {side : Side} {s t : State N} {e : Call N} (hs : Covered s.guard s.accepted s.now)
    (h : step side s e = some t) : Covered t.guard t.accepted t.now ↔ PurgesOnlyClosed s e := by
  cases e with
  | checkAndRecord ts n now₁ now₂ now₃ =>
      obtain ⟨hclock, ⟨hacc, rfl⟩ | ⟨hacc, rfl⟩⟩ := step_check h
      · have hrec := covered_record (hs.later (show s.now ≤ now₃ by omega)) now₂ ts n
        simp only [PurgesOnlyClosed, hacc, forall_const, Side.afterRecord]
        split
        · rename_i hfull
          simpa [hfull] using covered_purge hrec le_rfl
        · rename_i hroom
          simpa [hroom] using hrec
      · simp only [PurgesOnlyClosed, hacc, Bool.false_eq_true, false_implies, iff_true]
        exact hs.later (by omega)
  | purgeExpired now =>
      obtain ⟨hle, rfl⟩ := step_purge h
      exact covered_purge hs hle

theorem nodup_step {side : Side} {s t : State N} {e : Call N} (hnodup : s.accepted.Nodup) (hs : Refuses side s)
    (h : step side s e = some t) : t.accepted.Nodup := by
  cases e with
  | checkAndRecord ts n now₁ now₂ now₃ =>
      obtain ⟨hclock, ⟨hacc, rfl⟩ | ⟨-, rfl⟩⟩ := step_check h
      · refine List.nodup_cons.mpr ⟨fun hmem => ?_, hnodup⟩
        have hfalse := hs _ hmem now₁ now₂ now₃ hclock.1
        rw [Side.check_eq, if_pos hacc] at hfalse
        cases hfalse
      · exact hnodup
  | purgeExpired now =>
      obtain ⟨-, rfl⟩ := step_purge h
      exact hnodup

theorem never_reopened_iff (side : Side) (windowSeconds start : Int) {es : List (Call N)}
    (hrun : (machine side windowSeconds start).IsRun es) :
    (machine side windowSeconds start).Always (fun s => s.accepted.Nodup ∧ Refuses side s)
        (machine side windowSeconds start).init es ↔
      (machine side windowSeconds start).Guarded PurgesOnlyClosed (machine side windowSeconds start).init es := by
  have hinit : InWindow (⟨.fresh windowSeconds, start, []⟩ : State N) := fun a ha => by cases ha
  refine Machine.always_iff_guarded _ inWindow_step ?_ hinit
    ⟨List.nodup_nil, fun a ha => by cases ha⟩ hrun
  rintro s e t hs ⟨hnodup, href⟩ h
  have ht := inWindow_step hs h
  rw [refuses_iff ht, covered_step ((refuses_iff hs).mp href) h]
  exact and_iff_right (nodup_step hnodup href h)

def PastDated (s : State N) : Call N → Prop
  | .checkAndRecord ts n now₁ now₂ _ => Side.accepts s.guard now₁ ts n = true → ts ≤ now₂
  | .purgeExpired _ => True

structure Outlasts (s : State N) : Prop where
  past : ∀ a ∈ s.accepted, a.1 ≤ s.now
  expiry : ∀ a ∈ s.accepted, ∀ e, s.guard.nonces.lookup a.2 = some e → a.1 + s.guard.windowMs ≤ e

theorem Outlasts.kept {s : State N} (hs : Outlasts s) (now : Int) : Kept s.guard s.accepted now := by
  intro a ha hopen e he
  have := hs.expiry a ha e he
  omega

theorem outlasts_record {s : State N} {ts now₁ now₂ now₃ : Int} {n : N} (hs : Outlasts s) (hdated : ts ≤ now₂)
    (hclock : s.now ≤ now₁ ∧ now₁ ≤ now₂ ∧ now₂ ≤ now₃) :
    Outlasts ⟨s.guard.recordNonce now₂ n, now₃, (ts, n) :: s.accepted⟩ where
  past := by
    intro a ha
    rcases List.mem_cons.mp ha with rfl | ha
    · exact hdated.trans hclock.2.2
    · exact (hs.past a ha).trans (hclock.1.trans (hclock.2.1.trans hclock.2.2))
  expiry := by
    intro a ha e he
    rw [ReplayGuard.lookup_recordNonce] at he
    split at he
    · cases he
      rcases List.mem_cons.mp ha with rfl | ha
      · exact Int.add_le_add_right hdated _
      · exact Int.add_le_add_right ((hs.past a ha).trans (hclock.1.trans hclock.2.1)) _
    · rename_i hne
      rcases List.mem_cons.mp ha with rfl | ha
      · exact absurd rfl hne
      · exact hs.expiry a ha e he

theorem Outlasts.purge {side : Side} {s : State N} (hs : Outlasts s) {now : Int} (hle : s.now ≤ now) :
    Outlasts ⟨side.purge s.guard now, now, s.accepted⟩ where
  past := fun a ha => (hs.past a ha).trans hle
  expiry := by
    intro a ha e he
    rw [Side.lookup_purge, Option.filter_eq_some_iff] at he
    rw [Side.windowMs_purge]
    exact hs.expiry a ha e he.1

theorem outlasts_step {side : Side} {s t : State N} {e : Call N} (hs : Outlasts s) (hdated : PastDated s e)
    (h : step side s e = some t) : Outlasts t := by
  cases e with
  | checkAndRecord ts n now₁ now₂ now₃ =>
      obtain ⟨hclock, ⟨hacc, rfl⟩ | ⟨-, rfl⟩⟩ := step_check h
      · have hrec : Outlasts ⟨s.guard.recordNonce now₂ n, now₃, (ts, n) :: s.accepted⟩ :=
          outlasts_record hs (hdated hacc) hclock
        unfold Side.afterRecord
        split
        · exact hrec.purge le_rfl
        · exact hrec
      · exact ⟨fun a ha => (hs.past a ha).trans (by change s.now ≤ now₃; omega), hs.expiry⟩
  | purgeExpired now =>
      obtain ⟨hle, rfl⟩ := step_purge h
      exact hs.purge hle

theorem purgesOnlyClosed_of_pastDated {side : Side} {s t : State N} {e : Call N} (hs : Outlasts s)
    (hdated : PastDated s e) (h : step side s e = some t) : PurgesOnlyClosed s e := by
  cases e with
  | checkAndRecord ts n now₁ now₂ now₃ =>
      intro hacc _
      exact (outlasts_record hs (hdated hacc) (step_check h).1).kept now₃
  | purgeExpired now => exact hs.kept now

theorem never_reopened_of_pastDated (side : Side) (windowSeconds start : Int) {es : List (Call N)}
    (hrun : (machine side windowSeconds start).IsRun es)
    (hdated : (machine side windowSeconds start).Guarded PastDated (machine side windowSeconds start).init es) :
    (machine side windowSeconds start).Always (fun s => s.accepted.Nodup ∧ Refuses side s)
      (machine side windowSeconds start).init es :=
  (never_reopened_iff side windowSeconds start hrun).mpr
    (Machine.guarded_mono _ outlasts_step purgesOnlyClosed_of_pastDated
      ⟨fun a ha => (by cases ha), fun a ha => (by cases ha)⟩ hrun hdated)

-- Dated 300 s ahead, forgotten one millisecond too early and delivered again.
def futureDated : List (Call Text.Str) :=
  [.checkAndRecord 300000 (Text.str "AAAAAAAAAAAAAAAAAAAAAA==\n") 0 0 0,
    .purgeExpired 300001,
    .checkAndRecord 300000 (Text.str "AAAAAAAAAAAAAAAAAAAAAA==\n") 300001 300001 300001]

theorem futureDated_accepted_twice :
    (∃ s, (machine .forwarder 300 0).exec (machine .forwarder 300 0).init futureDated = some s ∧
      ¬ s.accepted.Nodup) ∧
    ∃ s, (machine .agent 300 0).exec (machine .agent 300 0).init futureDated = some s ∧ ¬ s.accepted.Nodup :=
  ⟨⟨_, rfl, by decide⟩, ⟨_, rfl, by decide⟩⟩

theorem never_reopened_iff_futureDated :
    (machine .forwarder 300 0).Always (fun s => s.accepted.Nodup ∧ Refuses .forwarder s)
        (machine .forwarder 300 0).init futureDated ↔
      (machine .forwarder 300 0).Guarded PurgesOnlyClosed (machine .forwarder 300 0).init futureDated :=
  never_reopened_iff .forwarder 300 0 (by decide)

end Replay
