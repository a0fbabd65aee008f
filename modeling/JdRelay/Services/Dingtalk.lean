import JdRelay.Crypto.Base64
import JdRelay.State

namespace Services
open Text State

-- What int takes for a space. Header text is Latin-1: no decimal digit above ASCII can occur in it.
def isSpace (p : CodePoint) : Bool := (9 ≤ p.val && p.val ≤ 13) || p.val = 32 || p.val = 133 || p.val = 160

def strip (s : Str) : Str := ((s.dropWhile isSpace).reverse.dropWhile isSpace).reverse

-- Decimal digits with single underscores between them.
def digitsOf : Str → Option (List Nat)
  | [] => none
  | p :: ps =>
      if !Json.isDigit p then none else
      match ps with
      | [] => some [p.val - 48]
      | q :: qs =>
          if q = ofChar '_' then (digitsOf qs).map ((p.val - 48) :: ·) else (digitsOf (q :: qs)).map ((p.val - 48) :: ·)

def unsigned (s : Str) : Option Int := do
  let ds ← digitsOf s
  if Json.maxDigits < ds.length then none else some (ds.foldl (fun n d => n * 10 + d) 0 : Nat)

def parseInt (s : Str) : Option Int :=
  match strip s with
  | [] => none
  | p :: ps =>
      if p = ofChar '-' then (unsigned ps).map (- ·)
      else if p = ofChar '+' then unsigned ps
      else unsigned (p :: ps)

structure DingTalkService where
  appKey : Str
  appSecret : Str
  agentId : Int

def encoded (s : Str) : Except Exn Bytes :=
  match encodeUtf8 s with
  | some b => .ok b
  | none => .error (.builtin .unicodeEncodeError)

-- hmac.compare_digest on two str: both must be ASCII.
def compareDigest (expected signature : Str) : Except Exn Bool :=
  if Crypto.isAscii expected && Crypto.isAscii signature then .ok (decide (expected = signature))
  else .error (.builtin .typeError)

def DingTalkService.verifySignature (svc : DingTalkService) (hmacSha256 : (key message : Bytes) → Bytes) (nowMs : Int)
    (timestamp nonce signature : Str) : Except Exn Bool :=
  if svc.appSecret = [] then .ok false
  else match parseInt timestamp with
    | none => .ok false
    | some ts =>
        if 300000 < (nowMs - ts).natAbs then .ok false
        else do
          let key ← encoded svc.appSecret
          let message ← encoded (timestamp ++ str "\n" ++ nonce)
          compareDigest (Base64.encode (hmacSha256 key message)) signature

end Services
