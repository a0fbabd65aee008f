import JdRelay.Base.Dict
import JdRelay.Base.Runs

namespace Crypto

structure ReplayGuard (N : Type) where
  windowSeconds : Int
  nonces : Dict N Int

namespace ReplayGuard

variable {N : Type}

def fresh (windowSeconds : Int) : ReplayGuard N := ⟨windowSeconds, ∅⟩

def windowMs (g : ReplayGuard N) : Int := g.windowSeconds * 1000

def isWithinWindow (g : ReplayGuard N) (now timestamp : Int) : Bool :=
  decide (now - g.windowMs ≤ timestamp) && decide (timestamp ≤ now + g.windowMs)

def cacheSize (g : ReplayGuard N) : Nat := g.nonces.size

def purgeLimit : Nat := 10000

def purgeExpired (g : ReplayGuard N) (now : Int) : ReplayGuard N :=
  { g with nonces := Dict.filter (fun _ expiry => decide (now ≤ expiry)) g.nonces }

@[simp] theorem windowMs_purgeExpired (g : ReplayGuard N) (now : Int) :
    (g.purgeExpired now).windowMs = g.windowMs := rfl

theorem isWithinWindow_iff {g : ReplayGuard N} {now ts : Int} :
    g.isWithinWindow now ts = true ↔ now - g.windowMs ≤ ts ∧ ts ≤ now + g.windowMs := by
  simp [isWithinWindow]

variable [DecidableEq N]

def isReplay (g : ReplayGuard N) (nonce : N) : Bool := decide (nonce ∈ g.nonces)

def recordNonce (g : ReplayGuard N) (now : Int) (nonce : N) : ReplayGuard N :=
  { g with nonces := g.nonces.insert nonce (now + g.windowMs) }

-- One clock reading for the window test, one for the expiry and one for the purge.
def checkAndRecord (g : ReplayGuard N) (now₁ now₂ now₃ timestamp : Int) (nonce : N) :
    Bool × ReplayGuard N :=
  if !g.isWithinWindow now₁ timestamp then (false, g)
  else if g.isReplay nonce then (false, g)
  else
    let g := g.recordNonce now₂ nonce
    (true, if purgeLimit < g.cacheSize then g.purgeExpired now₃ else g)

@[simp] theorem windowMs_recordNonce (g : ReplayGuard N) (now : Int) (nonce : N) :
    (g.recordNonce now nonce).windowMs = g.windowMs := rfl

theorem isReplay_iff {g : ReplayGuard N} {n : N} : g.isReplay n = true ↔ n ∈ g.nonces := by
  simp [isReplay]

theorem mem_recordNonce {g : ReplayGuard N} {now : Int} {n m : N} :
    m ∈ (g.recordNonce now n).nonces ↔ m = n ∨ m ∈ g.nonces := AList.mem_insert _

theorem lookup_recordNonce (g : ReplayGuard N) (now : Int) (n m : N) :
    (g.recordNonce now n).nonces.lookup m = if m = n then some (now + g.windowMs) else g.nonces.lookup m :=
  Dict.lookup_insert_if _ _ _ _

theorem lookup_purgeExpired (g : ReplayGuard N) (now : Int) (n : N) :
    (g.purgeExpired now).nonces.lookup n = (g.nonces.lookup n).filter (fun e => decide (now ≤ e)) :=
  Dict.lookup_filter _ _ _

end ReplayGuard
end Crypto
