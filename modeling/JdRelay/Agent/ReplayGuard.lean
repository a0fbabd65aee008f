import JdRelay.Crypto.ReplayGuard

namespace Agent.ReplayGuard
open Crypto

variable {N : Type} [DecidableEq N]

def isWithinWindow (g : ReplayGuard N) (now timestamp : Int) : Bool :=
  let windowMs := g.windowSeconds * 1000
  decide (now - windowMs ≤ timestamp) && decide (timestamp ≤ now + windowMs)

def isReplay (g : ReplayGuard N) (nonce : N) : Bool := (g.nonces.lookup nonce).isSome

def recordNonce (g : ReplayGuard N) (now : Int) (nonce : N) : ReplayGuard N :=
  { g with nonces := g.nonces.insert nonce (now + g.windowSeconds * 1000) }

-- The iterator walks the map once and erases as it goes.
def eraseExpired (now : Int) : List (Sigma fun _ : N => Int) → Dict N Int → Dict N Int
  | [], nonces => nonces
  | it :: rest, nonces => eraseExpired now rest (if it.2 < now then nonces.erase it.1 else nonces)

def purgeExpired (g : ReplayGuard N) (now : Int) : ReplayGuard N :=
  { g with nonces := eraseExpired now g.nonces.entries g.nonces }

def checkAndRecord (g : ReplayGuard N) (now₁ now₂ now₃ timestamp : Int) (nonce : N) : Bool × ReplayGuard N :=
  if !isWithinWindow g now₁ timestamp then (false, g)
  else if isReplay g nonce then (false, g)
  else
    let g := recordNonce g now₂ nonce
    if 10000 < g.nonces.size then (true, purgeExpired g now₃) else (true, g)

theorem isReplay_eq (g : ReplayGuard N) (nonce : N) : isReplay g nonce = g.isReplay nonce := by
  rw [Bool.eq_iff_iff, isReplay, AList.lookup_isSome, Crypto.ReplayGuard.isReplay_iff]

theorem lookup_eraseExpired (now : Int) (its : List (Sigma fun _ : N => Int)) (nonces : Dict N Int) (n : N) :
    (eraseExpired now its nonces).lookup n =
      if its.any (fun it => it.1 = n && it.2 < now) then none else nonces.lookup n := by
  induction its generalizing nonces with
  | nil => rfl
  | cons it rest ih =>
      rw [eraseExpired, ih]
      by_cases hexp : it.2 < now
      · by_cases hn : n = it.1
        · subst hn
          simp [hexp, AList.lookup_erase]
        · simp only [hexp, if_true, AList.lookup_erase_ne hn, List.any_cons, Ne.symm hn, decide_false, Bool.false_and,
            Bool.false_or]
      · simp only [hexp, if_false, List.any_cons, decide_false, Bool.and_false, Bool.false_or]

theorem lookup_purgeExpired (g : ReplayGuard N) (now : Int) (n : N) :
    (purgeExpired g now).nonces.lookup n = (g.purgeExpired now).nonces.lookup n := by
  rw [Crypto.ReplayGuard.lookup_purgeExpired, purgeExpired, lookup_eraseExpired]
  cases hn : g.nonces.lookup n with
  | none => simp
  | some e =>
      have hmem : ∀ e', (⟨n, e'⟩ : Sigma fun _ : N => Int) ∈ g.nonces.entries ↔ e' = e := fun e' => by
        rw [← AList.mem_lookup_iff, hn, Option.mem_some_iff, eq_comm]
      have hany : g.nonces.entries.any (fun it => it.1 = n && it.2 < now) = decide (e < now) := by
        rw [Bool.eq_iff_iff, List.any_eq_true, decide_eq_true_iff]
        constructor
        · rintro ⟨⟨k, e'⟩, hit, hk⟩
          simp only [Bool.and_eq_true, decide_eq_true_eq] at hk
          obtain ⟨rfl, he⟩ := hk
          rwa [← (hmem e').mp hit]
        · intro he
          exact ⟨⟨n, e⟩, (hmem e).mpr rfl, by simpa using he⟩
      by_cases he : e < now
      · simp [hany, he, Option.filter]
      · simp [hany, he, Option.filter, not_lt.mp he]

end Agent.ReplayGuard
