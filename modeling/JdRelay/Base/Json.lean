import JdRelay.Base.Number

namespace Json
open Text Number

inductive Value where
  | null
  | bool (b : Bool)
  | int (n : Int)
  | float (x : Double)
  | str (s : Str)
  | arr (items : List Value)
  | obj (fields : List (Str × Value))

mutual

def same : Value → Value → Bool
  | .null, .null => true
  | .bool a, .bool b => a == b
  | .int a, .int b => a == b
  | .float a, .float b => a == b
  | .str a, .str b => a == b
  | .arr a, .arr b => sameItems a b
  | .obj a, .obj b => sameFields a b
  | _, _ => false

def sameItems : List Value → List Value → Bool
  | [], [] => true
  | a :: as, b :: bs => same a b && sameItems as bs
  | _, _ => false

def sameFields : List (Str × Value) → List (Str × Value) → Bool
  | [], [] => true
  | (k, a) :: as, (l, b) :: bs => k == l && same a b && sameFields as bs
  | _, _ => false

end

mutual

theorem same_iff : ∀ a b, same a b = true ↔ a = b
  | .arr a, b => by cases b <;> simp [same, sameItems_iff a]
  | .obj a, b => by cases b <;> simp [same, sameFields_iff a]
  | .null, b => by cases b <;> simp [same]
  | .bool _, b => by cases b <;> simp [same]
  | .int _, b => by cases b <;> simp [same]
  | .float _, b => by cases b <;> simp [same]
  | .str _, b => by cases b <;> simp [same]

theorem sameItems_iff : ∀ as bs, sameItems as bs = true ↔ as = bs
  | [], bs => by cases bs <;> simp [sameItems]
  | a :: as, bs => by cases bs <;> simp [sameItems, same_iff a, sameItems_iff as]

theorem sameFields_iff : ∀ as bs, sameFields as bs = true ↔ as = bs
  | [], bs => by cases bs <;> simp [sameFields]
  | (k, a) :: as, bs => by
      cases bs with
      | nil => simp [sameFields]
      | cons b bs =>
          obtain ⟨l, b⟩ := b
          simp [sameFields, same_iff a, sameFields_iff as, and_assoc]

end

instance : DecidableEq Value := fun a b => decidable_of_iff _ (same_iff a b)

def isSpace (p : CodePoint) : Bool := p.val = 32 || p.val = 9 || p.val = 10 || p.val = 13

def skip (s : Str) : Str := s.dropWhile isSpace

def hexDigit? (p : CodePoint) : Option Nat :=
  if 48 ≤ p.val ∧ p.val ≤ 57 then some (p.val - 48)
  else if 97 ≤ p.val ∧ p.val ≤ 102 then some (p.val - 87)
  else if 65 ≤ p.val ∧ p.val ≤ 70 then some (p.val - 55)
  else none

def hex4? : Str → Option (Nat × Str)
  | a :: b :: c :: d :: rest => do
      let a ← hexDigit? a
      let b ← hexDigit? b
      let c ← hexDigit? c
      let d ← hexDigit? d
      some (((a * 16 + b) * 16 + c) * 16 + d, rest)
  | _ => none

def codePoint (n : Nat) : CodePoint := Fin.ofNat 0x110000 n

def escape? (p : CodePoint) : Option CodePoint :=
  if p = ofChar '"' ∨ p = ofChar '\\' ∨ p = ofChar '/' then some p
  else if p = ofChar 'b' then some 8
  else if p = ofChar 'f' then some 12
  else if p = ofChar 'n' then some 10
  else if p = ofChar 'r' then some 13
  else if p = ofChar 't' then some 9
  else none

-- A high surrogate pairs with a \u escape of a low one right after it and stands alone otherwise.
def unicodeEscape? (s : Str) : Option (CodePoint × Str) := do
  let (hi, rest) ← hex4? s
  if 0xD800 ≤ hi ∧ hi ≤ 0xDBFF ∧ rest.take 2 = [ofChar '\\', ofChar 'u'] then
    let (lo, rest') ← hex4? (rest.drop 2)
    if 0xDC00 ≤ lo ∧ lo ≤ 0xDFFF then
      some (codePoint (0x10000 + (hi - 0xD800) * 0x400 + (lo - 0xDC00)), rest')
    else some (codePoint hi, rest)
  else some (codePoint hi, rest)

def scanString : Nat → Str → Option (Str × Str)
  | 0, _ => none
  | _ + 1, [] => none
  | n + 1, p :: ps =>
      if p = ofChar '"' then some ([], ps)
      else if p = ofChar '\\' then do
        let (q, rest) ← if ps.head? = some (ofChar 'u') then unicodeEscape? ps.tail
          else ps.head?.bind fun e => (escape? e).map (·, ps.tail)
        let (t, rest) ← scanString n rest
        some (q :: t, rest)
      else if p.val < 32 then none
      else do
        let (t, rest) ← scanString n ps
        some (p :: t, rest)

def isDigit (p : CodePoint) : Bool := 48 ≤ p.val && p.val ≤ 57

def decimal (ds : Str) : Nat := ds.foldl (fun n p => n * 10 + (p.val - 48)) 0

def scanInt (s : Str) : Option (Str × Str) :=
  match s with
  | [] => none
  | p :: ps =>
      if p = ofChar '0' then some ([p], ps)
      else if isDigit p then some (p :: ps.takeWhile isDigit, ps.dropWhile isDigit)
      else none

def scanFrac (s : Str) : Str × Str :=
  match s with
  | [] => ([], [])
  | p :: ps =>
      if p = ofChar '.' ∧ (ps.takeWhile isDigit) ≠ [] then (ps.takeWhile isDigit, ps.dropWhile isDigit)
      else ([], s)

def scanExp (s : Str) : Option Int × Str :=
  match s with
  | [] => (none, [])
  | p :: ps =>
      if p = ofChar 'e' ∨ p = ofChar 'E' then
        let signed := ps.head? = some (ofChar '-') ∨ ps.head? = some (ofChar '+')
        let body := if signed then ps.tail else ps
        let ds := body.takeWhile isDigit
        if ds = [] then (none, s)
        else
          let e : Int := decimal ds
          (some (if ps.head? = some (ofChar '-') then -e else e), body.dropWhile isDigit)
      else (none, s)

-- int() refuses more than 4300 digits.
def maxDigits : Nat := 4300

def scanNumber (neg : Bool) (s : Str) : Option (Value × Str) := do
  let (ds, rest) ← scanInt s
  let (fs, rest) := scanFrac rest
  let (e, rest) := scanExp rest
  if fs = [] ∧ e = none then
    if maxDigits < ds.length then none
    else some (.int (if neg then -(decimal ds : Int) else decimal ds), rest)
  else some (.float (.ofDecimal neg (decimal (ds ++ fs)) (e.getD 0 - fs.length)), rest)

def word? (w : String) (v : Value) (s : Str) : Option (Value × Str) :=
  if s.take w.length = Text.str w then some (v, s.drop w.length) else none

def scanScalar (s : Str) : Option (Value × Str) :=
  match s with
  | [] => none
  | p :: ps =>
      if p = ofChar 'n' then word? "null" .null s
      else if p = ofChar 't' then word? "true" (.bool true) s
      else if p = ofChar 'f' then word? "false" (.bool false) s
      else if p = ofChar 'N' then word? "NaN" (.float .nan) s
      else if p = ofChar 'I' then word? "Infinity" (.float (.inf false)) s
      else if p = ofChar '-' then
        (word? "-Infinity" (.float (.inf true)) s).orElse fun _ => scanNumber true ps
      else scanNumber false s

mutual

def scanValue : Nat → Str → Option (Value × Str)
  | 0, _ => none
  | _ + 1, [] => none
  | n + 1, p :: ps =>
      if p = ofChar '"' then (scanString (ps.length + 1) ps).map fun r => (.str r.1, r.2)
      else if p = ofChar '{' then
        if (skip ps).head? = some (ofChar '}') then some (.obj [], (skip ps).tail)
        else (scanFields n (skip ps)).map fun r => (.obj r.1, r.2)
      else if p = ofChar '[' then
        if (skip ps).head? = some (ofChar ']') then some (.arr [], (skip ps).tail)
        else (scanItems n (skip ps)).map fun r => (.arr r.1, r.2)
      else scanScalar (p :: ps)

def scanItems : Nat → Str → Option (List Value × Str)
  | 0, _ => none
  | n + 1, s => do
      let (v, rest) ← scanValue n s
      match skip rest with
      | [] => none
      | q :: qs =>
          if q = ofChar ']' then some ([v], qs)
          else if q = ofChar ',' then (scanItems n (skip qs)).map fun r => (v :: r.1, r.2)
          else none

def scanFields : Nat → Str → Option (List (Str × Value) × Str)
  | 0, _ => none
  | _ + 1, [] => none
  | n + 1, p :: ps => do
      if p ≠ ofChar '"' then none else
      let (k, rest) ← scanString (ps.length + 1) ps
      if (skip rest).head? ≠ some (ofChar ':') then none else
      let (v, rest) ← scanValue n (skip (skip rest).tail)
      match skip rest with
      | [] => none
      | q :: qs =>
          if q = ofChar '}' then some ([(k, v)], qs)
          else if q = ofChar ',' then (scanFields n (skip qs)).map fun r => ((k, v) :: r.1, r.2)
          else none

end

-- Every call below consumes a character or one of two levels of nesting, so the fuel never runs out.
def loads (s : Str) : Option Value := do
  let (v, rest) ← scanValue (2 * s.length + 2) (skip s)
  if skip rest = [] then some v else none

-- A repeated key keeps its last value.
def lookup? (fields : List (Str × Value)) (k : Str) : Option Value :=
  (fields.reverse.find? fun f => f.1 = k).map Prod.snd

def hex4 (n : Nat) : Str :=
  let ds := (Nat.toDigits 16 n).map ofChar
  str "\\u" ++ List.replicate (4 - ds.length) (ofChar '0') ++ ds

def escaped (ascii : Bool) (p : CodePoint) : Str :=
  if p = ofChar '"' then str "\\\""
  else if p = ofChar '\\' then str "\\\\"
  else if p.val = 10 then str "\\n"
  else if p.val = 13 then str "\\r"
  else if p.val = 9 then str "\\t"
  else if p.val = 12 then str "\\f"
  else if p.val = 8 then str "\\b"
  else if p.val < 32 then hex4 p.val
  else if ascii = false ∨ p.val < 127 then [p]
  else if p.val < 0x10000 then hex4 p.val
  else hex4 (0xD800 + (p.val - 0x10000) / 0x400) ++ hex4 (0xDC00 + (p.val - 0x10000) % 0x400)

def quoted (ascii : Bool) (s : Str) : Str := ofChar '"' :: s.flatMap (escaped ascii) ++ [ofChar '"']

def floatStr : Double → Str
  | .nan => str "NaN"
  | .inf false => str "Infinity"
  | .inf true => str "-Infinity"
  | x => x.reprStr

structure Layout where
  itemSep : Str
  keySep : Str
  ascii : Bool

-- json.dumps(v) and json.dumps(v, ensure_ascii=False, separators=(',', ':')).
def Layout.standard : Layout := ⟨str ", ", str ": ", true⟩

def Layout.compact : Layout := ⟨str ",", str ":", false⟩

def separated (sep : Str) : List Str → Str
  | [] => []
  | [x] => x
  | x :: y :: ys => x ++ sep ++ separated sep (y :: ys)

mutual

def dumpsWith (l : Layout) : Value → Str
  | .null => str "null"
  | .bool true => str "true"
  | .bool false => str "false"
  | .int n => intStr n
  | .float x => floatStr x
  | .str s => quoted l.ascii s
  | .arr items => ofChar '[' :: separated l.itemSep (dumpItems l items) ++ [ofChar ']']
  | .obj fields => ofChar '\x7b' :: separated l.itemSep (dumpFields l fields) ++ [ofChar '\x7d']

def dumpItems (l : Layout) : List Value → List Str
  | [] => []
  | v :: vs => dumpsWith l v :: dumpItems l vs

def dumpFields (l : Layout) : List (Str × Value) → List Str
  | [] => []
  | (k, v) :: fs => (quoted l.ascii k ++ l.keySep ++ dumpsWith l v) :: dumpFields l fs

end

def dumps (v : Value) : Str := dumpsWith .standard v

end Json
