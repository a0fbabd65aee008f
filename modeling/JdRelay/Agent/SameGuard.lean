import JdRelay.Base.Receiver
import JdRelay.Crypto.Replay

namespace Agent.SameGuard
open Crypto Runs Replay

variable {N : Type} [DecidableEq N]

-- One call on a guard, with a clock reading for each now_ms() inside it.
inductive Call (N : Type) where
  | isWithinWindow (now timestamp : Int)
  | isReplay (nonce : N)
  | recordNonce (now : Int) (nonce : N)
  | checkAndRecord (now₁ now₂ now₃ timestamp : Int) (nonce : N)
  | purgeExpired (now : Int)
  | cacheSize

inductive Answer where
  | verdict (b : Bool)
  | size (n : Nat)
  | done
  deriving DecidableEq

def forwarderCall (g : ReplayGuard N) : Call N → Answer × ReplayGuard N
  | .isWithinWindow now timestamp => (.verdict (g.isWithinWindow now timestamp), g)
  | .isReplay nonce => (.verdict (g.isReplay nonce), g)
  | .recordNonce now nonce => (.done, g.recordNonce now nonce)
  | .checkAndRecord now₁ now₂ now₃ timestamp nonce =>
      let r := g.checkAndRecord now₁ now₂ now₃ timestamp nonce
      (.verdict r.1, r.2)
  | .purgeExpired now => (.done, g.purgeExpired now)
  | .cacheSize => (.size g.cacheSize, g)

def agentCall (g : ReplayGuard N) : Call N → Answer × ReplayGuard N
  | .isWithinWindow now timestamp => (.verdict (Agent.ReplayGuard.isWithinWindow g now timestamp), g)
  | .isReplay nonce => (.verdict (Agent.ReplayGuard.isReplay g nonce), g)
  | .recordNonce now nonce => (.done, Agent.ReplayGuard.recordNonce g now nonce)
  | .checkAndRecord now₁ now₂ now₃ timestamp nonce =>
      let r := Agent.ReplayGuard.checkAndRecord g now₁ now₂ now₃ timestamp nonce
      (.verdict r.1, r.2)
  | .purgeExpired now => (.done, Agent.ReplayGuard.purgeExpired g now)
  | .cacheSize => (.size g.nonces.size, g)

def forwarder : Receiver (ReplayGuard N) (Call N) Answer := ⟨forwarderCall, (· ≠ .verdict false)⟩

def agent : Receiver (ReplayGuard N) (Call N) Answer := ⟨agentCall, (· ≠ .verdict false)⟩

structure Same (g g' : ReplayGuard N) : Prop where
  window : g.windowSeconds = g'.windowSeconds
  lookup : ∀ n, g.nonces.lookup n = g'.nonces.lookup n

variable {g g' : ReplayGuard N}

theorem Same.windowMs (h : Same g g') : g.windowMs = g'.windowMs := congrArg (· * 1000) h.window

theorem Same.cacheSize (h : Same g g') : g.cacheSize = g'.cacheSize := Dict.size_congr h.lookup

theorem Same.isReplay (h : Same g g') (nonce : N) : g.isReplay nonce = g'.isReplay nonce := by
  rw [← Agent.ReplayGuard.isReplay_eq, ← Agent.ReplayGuard.isReplay_eq, Agent.ReplayGuard.isReplay,
    Agent.ReplayGuard.isReplay, h.lookup]

theorem Same.isWithinWindow (h : Same g g') (now timestamp : Int) :
    g.isWithinWindow now timestamp = g'.isWithinWindow now timestamp := by
  rw [Crypto.ReplayGuard.isWithinWindow, Crypto.ReplayGuard.isWithinWindow, h.windowMs]

theorem Same.recordNonce (h : Same g g') (now : Int) (nonce : N) :
    Same (g.recordNonce now nonce) (g'.recordNonce now nonce) := by
  refine ⟨h.window, fun n => ?_⟩
  rw [Crypto.ReplayGuard.lookup_recordNonce, Crypto.ReplayGuard.lookup_recordNonce, h.lookup, h.windowMs]

theorem Same.purge (h : Same g g') (side side' : Side) (now : Int) : Same (side.purge g now) (side'.purge g' now) := by
  refine ⟨?_, fun n => ?_⟩
  · cases side <;> cases side' <;> exact h.window
  · rw [Side.lookup_purge, Side.lookup_purge, h.lookup]

theorem Same.afterRecord (h : Same g g') (side side' : Side) (now₂ now₃ : Int) (nonce : N) :
    Same (side.afterRecord g now₂ now₃ nonce) (side'.afterRecord g' now₂ now₃ nonce) := by
  have hrecorded := h.recordNonce now₂ nonce
  unfold Side.afterRecord
  rw [hrecorded.cacheSize]
  split
  · exact hrecorded.purge side side' now₃
  · exact hrecorded

theorem Same.check (h : Same g g') (side side' : Side) (now₁ now₂ now₃ timestamp : Int) (nonce : N) :
    (side.check g now₁ now₂ now₃ timestamp nonce).1 = (side'.check g' now₁ now₂ now₃ timestamp nonce).1 ∧
      Same (side.check g now₁ now₂ now₃ timestamp nonce).2 (side'.check g' now₁ now₂ now₃ timestamp nonce).2 := by
  have haccepts : Side.accepts g now₁ timestamp nonce = Side.accepts g' now₁ timestamp nonce := by
    rw [Side.accepts, Side.accepts, h.isWithinWindow, h.isReplay]
  rw [Side.check_eq, Side.check_eq, haccepts]
  split
  · exact ⟨rfl, h.afterRecord side side' now₂ now₃ nonce⟩
  · exact ⟨rfl, h⟩

theorem alongside : Receiver.Alongside (agent (N := N)) forwarder Same where
  result := by
    intro g g' h call
    cases call with
    | isWithinWindow now timestamp => exact congrArg Answer.verdict (h.isWithinWindow now timestamp)
    | isReplay nonce => exact congrArg Answer.verdict ((Agent.ReplayGuard.isReplay_eq g nonce).trans (h.isReplay nonce))
    | recordNonce now nonce => rfl
    | checkAndRecord now₁ now₂ now₃ timestamp nonce =>
        exact congrArg Answer.verdict (h.check .agent .forwarder now₁ now₂ now₃ timestamp nonce).1
    | purgeExpired now => rfl
    | cacheSize => exact congrArg Answer.size h.cacheSize
  near := by
    intro g g' h call
    cases call with
    | isWithinWindow now timestamp => exact h
    | isReplay nonce => exact h
    | recordNonce now nonce => exact h.recordNonce now nonce
    | checkAndRecord now₁ now₂ now₃ timestamp nonce =>
        exact (h.check .agent .forwarder now₁ now₂ now₃ timestamp nonce).2
    | purgeExpired now => exact h.purge .agent .forwarder now
    | cacheSize => exact h

theorem guards_agree (windowSeconds : Int) (calls : List (Call N)) :
    agent.results (.fresh windowSeconds) calls = forwarder.results (.fresh windowSeconds) calls :=
  alongside.results_eq ⟨rfl, fun _ => rfl⟩ calls

end Agent.SameGuard
