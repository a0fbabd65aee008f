import JdRelay.Base.Json

namespace Python
open Text Json

inductive Error where
  | typeError
  | attributeError
  | valueError
  | keyError
  | unicodeEncodeError
  | unicodeDecodeError
  | jsonDecodeError
  | runtimeError (text : Str)
  deriving DecidableEq

-- str(v). What a list or a dict prints as is left to reprOf.
def strOf (reprOf : Value → Str) : Value → Str
  | .null => str "None"
  | .bool true => str "True"
  | .bool false => str "False"
  | .int n => Number.intStr n
  | .float x => x.reprStr
  | .str s => s
  | .arr items => reprOf (.arr items)
  | .obj fields => reprOf (.obj fields)

def get (fields : List (Str × Value)) (key : String) (default : Value) : Value :=
  (lookup? fields (str key)).getD default

-- lo <= v and v <= hi, on the types that order with an int.
def between (lo hi : Int) : Value → Except Error Bool
  | .int n => .ok (decide (lo ≤ n) && decide (n ≤ hi))
  | .bool b => .ok (decide (lo ≤ b.toInt) && decide (b.toInt ≤ hi))
  | .float x => .ok (x.geInt lo && x.leInt hi)
  | _ => .error .typeError

-- What a dict makes of a key: numbers that are equal are one key, a list or a dict is none.
inductive DictKey where
  | none
  | num (n : Int)
  | float (x : Number.Double)
  | str (s : Str)
  deriving DecidableEq

def dictKey : Value → Option DictKey
  | .null => some .none
  | .bool b => some (.num b.toInt)
  | .int n => some (.num n)
  | .float x => some ((x.integer?.map .num).getD (.float x))
  | .str s => some (.str s)
  | _ => Option.none

def iterate : Value → Option (List Value)
  | .arr items => some items
  | .str s => some (s.map fun c => .str [c])
  | .obj fields => some ((fields.map Prod.fst).eraseDups.map .str)
  | _ => Option.none

theorem bind_ok {E A B : Type} {x : Except E A} {f : A → Except E B} {b : B} :
    x >>= f = .ok b ↔ ∃ a, x = .ok a ∧ f a = .ok b := by
  cases x with
  | error e => simp [bind, Except.bind]
  | ok a => simp [bind, Except.bind]

theorem ok_of_mapM {E A B : Type} {f : A → Except E B} : ∀ {as : List A} {bs : List B}, as.mapM f = .ok bs →
    ∀ a ∈ as, ∃ b ∈ bs, f a = .ok b
  | a :: as, bs, h, x, hx => by
      rw [List.mapM_cons] at h
      obtain ⟨b, hb, hrest⟩ := bind_ok.mp h
      obtain ⟨bs, hbs, hlist⟩ := bind_ok.mp hrest
      cases hlist
      rcases List.mem_cons.mp hx with rfl | hx
      · exact ⟨b, List.mem_cons_self, hb⟩
      · obtain ⟨c, hc, hfx⟩ := ok_of_mapM hbs x hx
        exact ⟨c, List.mem_cons_of_mem b hc, hfx⟩

theorem mapM_of_ok {E A B : Type} {f : A → Except E B} {g : A → B} : ∀ {as : List A}, (∀ a ∈ as, f a = .ok (g a)) →
    as.mapM f = .ok (as.map g)
  | [], _ => rfl
  | a :: as, h => by
      rw [List.mapM_cons, h a List.mem_cons_self, mapM_of_ok fun x hx => h x (List.mem_cons_of_mem a hx)]
      rfl

theorem between_int {lo hi n : Int} {b : Bool} (h : between lo hi (.int n) = .ok b) :
    b = true ↔ lo ≤ n ∧ n ≤ hi := by
  cases h
  simp

theorem le_of_between {lo hi : Int} {v : Value} (h : between lo hi v = .ok true) : lo ≤ hi := by
  cases v with
  | int n =>
      obtain ⟨hlo, hhi⟩ := (between_int h).mp rfl
      exact hlo.trans hhi
  | bool b =>
      have hb : lo ≤ b.toInt ∧ b.toInt ≤ hi := by simpa [between] using h
      exact hb.1.trans hb.2
  | float x =>
      have hx : x.geInt lo = true ∧ x.leInt hi = true := by simpa [between] using h
      exact Number.Double.le_of_between hx.1 hx.2
  | null => cases h
  | str s => cases h
  | arr items => cases h
  | obj fields => cases h

theorem strOf_eq_intStr {reprOf : Value → Str} {v : Value} {lo hi n : Int} {b : Bool}
    (hv : between lo hi v = .ok b) (hs : strOf reprOf v = Number.intStr n) : v = .int n := by
  cases v with
  | int m => rw [Number.intStr_injective hs]
  | float x => exact absurd hs (Number.Double.reprStr_ne_intStr x n)
  | bool c =>
      have hnot : ofChar 'e' ∉ Number.intStr n := fun h =>
        Number.not_intChar (by decide) (by decide) (Number.intStr_chars h)
      rw [← hs] at hnot
      cases c
      · exact absurd (show ofChar 'e' ∈ str "False" by decide) hnot
      · exact absurd (show ofChar 'e' ∈ str "True" by decide) hnot
  | null => cases hv
  | str s => cases hv
  | arr items => cases hv
  | obj fields => cases hv

end Python
