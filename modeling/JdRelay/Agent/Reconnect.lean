import JdRelay.Agent.WsClient

namespace Agent.Reconnect
open WsClient Runs Text

-- The waits of run since a connection was last established.
def tick (n : Nat) : Event → Nat
  | .connect (.established _) => 0
  | .wake => n + 1
  | _ => n

def waits (es : List Event) : Nat := es.foldl tick 0

def InLoop : Position → Prop
  | .ioHead _ | .reading _ | .handling _ _ | .terminated _ => True
  | _ => False

def delay (n : Nat) : Nat := min (2 ^ n) 30

theorem delay_succ (n : Nat) : min (delay n * 2) 30 = delay (n + 1) := by
  simp only [delay, Nat.pow_succ]
  omega

structure Paced (s : State) (n : Nat) : Prop where
  backoff : s.position ≠ .ended → s.backoff = delay n
  connected : s.connected = true ↔ InLoop s.position

variable {client : Client} {s t : State} {e : Event} {n : Nat}

theorem paced_reset (hs : Paced s n) (hp : s.position ≠ .ended) : Paced s.reset n where
  backoff _ := hs.backoff hp
  connected := by
    refine iff_of_false Bool.false_ne_true ?_
    unfold State.reset
    split <;> exact id

theorem paced_step (hs : Paced s n) (h : step client s e = some t) : Paced t (tick n e) := by
  cases e with
  | checkRunning =>
      simp only [step] at h
      split at h
      · rename_i hposition
        have hout : ¬ s.connected = true := by simp [hs.connected, hposition, InLoop]
        cases h
        split
        · exact ⟨fun _ => hs.backoff (by simp [hposition]), iff_of_false hout id⟩
        · exact ⟨fun hne => absurd rfl hne, iff_of_false hout id⟩
      · rename_i codec hposition
        have hlive : s.position ≠ .ended := by simp [hposition]
        cases h
        split
        · exact ⟨fun _ => hs.backoff hlive, iff_of_true (hs.connected.mpr (hposition ▸ trivial)) trivial⟩
        · exact paced_reset hs hlive
      · cases h
  | connect outcome =>
      simp only [step] at h
      split at h
      · rename_i hposition
        have hlive : s.position ≠ .ended := by simp [hposition]
        cases outcome with
        | established codec =>
            cases h
            exact ⟨fun _ => rfl, iff_of_true rfl trivial⟩
        | threw =>
            cases h
            exact paced_reset hs hlive
        | rejected =>
            cases h
            exact paced_reset hs hlive
      · cases h
  | read frame =>
      simp only [step] at h
      split at h
      · rename_i codec hposition
        have hlive : s.position ≠ .ended := by simp [hposition]
        split at h
        · cases h
          exact ⟨fun _ => hs.backoff hlive, iff_of_true (hs.connected.mpr (hposition ▸ trivial)) trivial⟩
        · cases h
          exact paced_reset hs hlive
      · cases h
  | handle r =>
      simp only [step] at h
      split at h
      · rename_i codec jsonStr hposition
        have hlive : s.position ≠ .ended := by simp [hposition]
        have hconnected : s.connected = true := hs.connected.mpr (hposition ▸ trivial)
        split at h
        · cases h
          exact ⟨fun _ => hs.backoff hlive, iff_of_true hconnected trivial⟩
        · cases h
          exact ⟨fun _ => hs.backoff hlive, iff_of_true hconnected trivial⟩
      · cases h
  | wake =>
      simp only [step] at h
      split at h
      · rename_i hposition
        cases h
        have hbackoff := hs.backoff (by simp [hposition])
        refine ⟨fun _ => ?_, hs.connected.trans (iff_of_false ?_ id)⟩
        · exact hbackoff ▸ delay_succ n
        · rw [hposition]
          exact id
      · cases h
  | stop =>
      cases h
      exact ⟨hs.backoff, hs.connected⟩

theorem paced_exec {es : List Event} (hs : Paced s n) (h : (machine client).exec s es = some t) :
    Paced t (es.foldl tick n) := by
  induction es generalizing s n with
  | nil =>
      cases h
      exact hs
  | cons e es ih =>
      obtain ⟨u, hu, hrest⟩ := Machine.exec_cons _ |>.mp h
      exact ih (paced_step hs hu) hrest

theorem reconnect_paced {es : List Event} (h : (machine client).exec (machine client).init es = some s) :
    Paced s (waits es) :=
  paced_exec ⟨fun _ => rfl, iff_of_false Bool.false_ne_true id⟩ h

section Stop

def moves : Event → Bool
  | .stop => false
  | _ => true

def Over : Position → Prop
  | .ended | .terminated _ => True
  | _ => False

def rank : Position → Nat
  | .ended | .terminated _ => 0
  | .loopHead | .ioHead _ => 1
  | .connecting | .handling _ _ | .waiting => 2
  | .reading _ => 3

theorem rank_le_three (p : Position) : rank p ≤ 3 := by cases p <;> simp [rank]

theorem rank_step (hs : s.running = false) (h : step client s e = some t) :
    t.running = false ∧ rank t.position + (if moves e then 1 else 0) ≤ rank s.position := by
  have hreset : s.reset.position = .ended := by rw [State.reset, hs]; rfl
  cases e with
  | checkRunning =>
      simp only [step, hs, Bool.false_eq_true, if_false] at h
      split at h
      · rename_i hposition
        cases h
        exact ⟨rfl, by simp [rank, moves, hposition]⟩
      · rename_i codec hposition
        cases h
        exact ⟨hs, by simp [rank, moves, hposition, hreset]⟩
      · cases h
  | connect outcome =>
      simp only [step] at h
      split at h
      · rename_i hposition
        cases outcome <;> (cases h; exact ⟨hs, by simp [rank, moves, hposition, hreset]⟩)
      · cases h
  | read frame =>
      simp only [step] at h
      split at h
      · rename_i codec hposition
        split at h <;> (cases h; exact ⟨hs, by simp [rank, moves, hposition, hreset]⟩)
      · cases h
  | handle r =>
      simp only [step] at h
      split at h
      · rename_i codec jsonStr hposition
        split at h <;> (cases h; exact ⟨hs, by simp [rank, moves, hposition]⟩)
      · cases h
  | wake =>
      simp only [step] at h
      split at h
      · rename_i hposition
        cases h
        exact ⟨hs, by simp [rank, moves, hposition]⟩
      · cases h
  | stop =>
      cases h
      exact ⟨rfl, le_rfl⟩

theorem rank_exec {es : List Event} (hs : s.running = false) (h : (machine client).exec s es = some t) :
    rank t.position + es.countP moves ≤ rank s.position := by
  induction es generalizing s with
  | nil =>
      cases h
      exact le_rfl
  | cons e es ih =>
      obtain ⟨u, hu, hrest⟩ := Machine.exec_cons _ |>.mp h
      obtain ⟨hrunning, hrank⟩ := rank_step hs hu
      have hmore := ih hrunning hrest
      rw [List.countP_cons]
      omega

theorem moves_of_not_over (h : ¬ Over s.position) : ∃ e, moves e = true ∧ (step client s e).isSome = true := by
  cases hposition : s.position with
  | loopHead =>
      refine ⟨.checkRunning, rfl, ?_⟩
      simp only [step, hposition]
      rfl
  | connecting =>
      refine ⟨.connect .threw, rfl, ?_⟩
      simp only [step, hposition]
      rfl
  | ioHead codec =>
      refine ⟨.checkRunning, rfl, ?_⟩
      simp only [step, hposition]
      rfl
  | reading codec =>
      refine ⟨.read none, rfl, ?_⟩
      simp only [step, hposition]
      rfl
  | handling codec jsonStr =>
      refine ⟨.handle sampleReadings, rfl, ?_⟩
      simp only [step, hposition]
      split <;> rfl
  | waiting =>
      refine ⟨.wake, rfl, ?_⟩
      simp only [step, hposition]
      rfl
  | ended => exact absurd (hposition ▸ trivial) h
  | terminated e => exact absurd (hposition ▸ trivial) h

theorem stop_drains {es : List Event} (hs : s.running = false) (h : (machine client).exec s es = some t) :
    es.countP moves ≤ 3 ∧ ((∀ e, moves e = true → step client t e = none) → Over t.position) := by
  constructor
  · have hrank := rank_exec hs h
    have hbound := rank_le_three s.position
    omega
  · intro hstuck
    by_contra hover
    obtain ⟨e, he, hstep⟩ := moves_of_not_over hover
    rw [hstuck e he] at hstep
    cases hstep

end Stop

def failingRun : List Event :=
  [.checkRunning, .connect .threw, .wake, .checkRunning, .connect .rejected, .wake, .checkRunning, .connect .threw, .wake,
    .checkRunning, .connect (.established sampleCodec), .checkRunning, .read none]

theorem reconnect_paced_failingRun :
    ∃ s, (machine sampleClient).exec (machine sampleClient).init failingRun = some s ∧ Paced s (waits failingRun) :=
  ⟨_, rfl, reconnect_paced rfl⟩

-- stop comes while a read waits, which still returns a frame.
def stoppedRead : State := ⟨false, true, 1, .reading sampleCodec, []⟩

def lastSteps : List Event := [.read (some (Agent.bytes (str "\x7b\x7d"))), .stop, .handle sampleReadings, .checkRunning]

theorem stop_drains_stoppedRead : ∃ t, (machine sampleClient).exec stoppedRead lastSteps = some t ∧
    lastSteps.countP moves ≤ 3 ∧ ((∀ e, moves e = true → step sampleClient t e = none) → Over t.position) :=
  ⟨_, rfl, stop_drains (s := stoppedRead) rfl rfl⟩

end Agent.Reconnect
