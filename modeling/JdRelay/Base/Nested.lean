import JdRelay.Base.RoundTrip

namespace Json
open Text Number

-- What json.loads reads back wherever it stands in a document.
inductive Writable (ascii : Bool) : Value → Prop where
  | null : Writable ascii .null
  | bool (b : Bool) : Writable ascii (.bool b)
  | flat {v : Value} (hv : FlatIn ascii v) : Writable ascii v
  | arr {items : List Value} (hitems : ∀ v ∈ items, Writable ascii v) : Writable ascii (.arr items)
  | obj {fields : List (Str × Value)} (hkeys : ∀ f ∈ fields, Readable ascii f.1)
      (hvalues : ∀ f ∈ fields, Writable ascii f.2) : Writable ascii (.obj fields)

section Nested

variable {l : Layout}

structure Starts (s : Str) : Prop where
  starts : ∃ p ps, s = p :: ps ∧ isSpace p = false ∧ p ≠ ofChar ']' ∧ p ≠ ofChar '\x7d'

theorem starts_flat {v : Value} (hv : FlatIn l.ascii v) : Starts (dumpsWith l v) := by
  cases hv with
  | str hs => exact ⟨_, _, rfl, by decide, by decide, by decide⟩
  | @int n hlength =>
      cases n with
      | ofNat k =>
          obtain ⟨p, ps, hcons, -⟩ := natStr_cons k
          have hp : isDigit p = true := isDigit_natStr k p (hcons ▸ List.mem_cons_self)
          exact ⟨p, ps, hcons, isSpace_digit hp, ne_of_isDigit hp rfl, ne_of_isDigit hp rfl⟩
      | negSucc k => exact ⟨_, _, rfl, by decide, by decide, by decide⟩

theorem Writable.starts {v : Value} (hv : Writable l.ascii v) : Starts (dumpsWith l v) := by
  cases hv with
  | null => exact ⟨_, _, rfl, by decide, by decide, by decide⟩
  | bool b => cases b <;> exact ⟨_, _, rfl, by decide, by decide, by decide⟩
  | flat hv => exact starts_flat hv
  | arr hitems => exact ⟨_, _, rfl, by decide, by decide, by decide⟩
  | obj hkeys hvalues => exact ⟨_, _, rfl, by decide, by decide, by decide⟩

theorem Starts.skip {s : Str} (h : Starts s) (t : Str) : Json.skip (s ++ t) = s ++ t := by
  obtain ⟨p, ps, rfl, hspace, -, -⟩ := h
  exact skip_cons hspace _

theorem Starts.head {s : Str} (h : Starts s) (t : Str) : (s ++ t).head? ≠ some (ofChar ']') := by
  obtain ⟨p, ps, rfl, -, hbracket, -⟩ := h
  simpa using hbracket

theorem Starts.closes {s : Str} (h : Starts s) (t : Str) : (s ++ t).head? ≠ some (ofChar '\x7d') := by
  obtain ⟨p, ps, rfl, -, -, hbrace⟩ := h
  simpa using hbrace

theorem Starts.length_pos {s : Str} (h : Starts s) : 0 < s.length := by
  obtain ⟨p, ps, rfl, -⟩ := h
  exact Nat.succ_pos _

def Scans (l : Layout) (v : Value) : Prop :=
  ∀ n t, 2 * (dumpsWith l v).length ≤ n → Ends t → scanValue n (dumpsWith l v ++ t) = some (v, t)

theorem scans_word {w : String} {v : Value} {c : Char} {cs : List Char} (hw : w.toList = c :: cs)
    (htext : dumpsWith l v = str w) (hquote : ofChar c ≠ ofChar '"') (hbrace : ofChar c ≠ ofChar '\x7b')
    (hbracket : ofChar c ≠ ofChar '[') (hscan : ∀ t, scanScalar (str w ++ t) = some (v, t)) : Scans l v := by
  intro n t hn ht
  have hcons : str w = ofChar c :: cs.map ofChar := by rw [str, hw, List.map_cons]
  have hlength := congrArg List.length hcons
  obtain ⟨m, rfl⟩ : ∃ m, n = m + 1 := ⟨n - 1, by rw [htext, hlength, List.length_cons] at hn; omega⟩
  have hscan := hscan t
  rw [htext, hcons, List.cons_append] at *
  rw [scanValue_scalar hquote hbrace hbracket, hscan]

theorem scans_null : Scans l .null := by
  refine scans_word (w := "null") rfl rfl (by decide) (by decide) (by decide) fun t => ?_
  rfl

theorem scans_bool (b : Bool) : Scans l (.bool b) := by
  cases b with
  | false => exact scans_word (w := "false") rfl rfl (by decide) (by decide) (by decide) fun t => rfl
  | true => exact scans_word (w := "true") rfl rfl (by decide) (by decide) (by decide) fun t => rfl

theorem scans_flat {v : Value} (hv : FlatIn l.ascii v) : Scans l v := by
  intro n t hn ht
  have hpos := (starts_flat hv).length_pos
  obtain ⟨m, rfl⟩ : ∃ m, n = m + 1 := ⟨n - 1, by omega⟩
  exact scanValue_flat hv m ht

theorem ends_of_not {p : CodePoint} (hdigit : isDigit p = false) (hdot : p ≠ ofChar '.') (he : p ≠ ofChar 'e')
    (hE : p ≠ ofChar 'E') (t : Str) : Ends (p :: t) := by
  intro q hq
  cases hq
  exact ⟨hdigit, hdot, he, hE⟩

theorem ends_comma (t : Str) : Ends (ofChar ',' :: t) := ends_of_not (by decide) (by decide) (by decide) (by decide) t

theorem ends_bracket (t : Str) : Ends (ofChar ']' :: t) := ends_of_not (by decide) (by decide) (by decide) (by decide) t

theorem ends_brace (t : Str) : Ends (ofChar '\x7d' :: t) := ends_of_not (by decide) (by decide) (by decide) (by decide) t

section Items

theorem starts_items {items : List Value} (hne : items ≠ []) (h : ∀ v ∈ items, Starts (dumpsWith l v)) :
    Starts (separated l.itemSep (dumpItems l items)) := by
  obtain ⟨v, vs, rfl⟩ := List.exists_cons_of_ne_nil hne
  obtain ⟨p, ps, htext, hp⟩ := h v List.mem_cons_self
  cases vs with
  | nil => exact ⟨p, ps, htext, hp⟩
  | cons w ws =>
      refine ⟨p, ps ++ (l.itemSep ++ separated l.itemSep (dumpItems l (w :: ws))), ?_, hp⟩
      change dumpsWith l v ++ l.itemSep ++ _ = _
      rw [htext, List.append_assoc]
      rfl

theorem scanItems_nested (hl : l.Spaced) {items : List Value} (hne : items ≠ []) (hstarts : ∀ v ∈ items, Starts (dumpsWith l v))
    (hscans : ∀ v ∈ items, Scans l v) {n : Nat} (hn : 2 * (separated l.itemSep (dumpItems l items)).length < n) (t : Str) :
    scanItems n (separated l.itemSep (dumpItems l items) ++ ofChar ']' :: t) = some (items, t) := by
  induction items generalizing n with
  | nil => exact absurd rfl hne
  | cons v vs ih =>
      obtain ⟨m, rfl⟩ : ∃ m, n = m + 1 := ⟨n - 1, by omega⟩
      obtain ⟨hv, hvs⟩ := List.forall_mem_cons.mp hscans
      cases vs with
      | nil =>
          change 2 * (dumpsWith l v).length < m + 1 at hn
          change scanItems (m + 1) (dumpsWith l v ++ ofChar ']' :: t) = _
          have hskip : skip (ofChar ']' :: t) = ofChar ']' :: t := skip_cons (by decide) _
          simp only [scanItems, hv m _ (by omega) (ends_bracket t), Option.bind_eq_bind, Option.bind_some, hskip, if_true]
      | cons w ws =>
          obtain ⟨blanks, hsep, hblanks⟩ := hl.item
          have hstart := starts_items (List.cons_ne_nil w ws) fun x hx => hstarts x (List.mem_cons_of_mem v hx)
          change 2 * (dumpsWith l v ++ l.itemSep ++ separated l.itemSep (dumpItems l (w :: ws))).length < m + 1 at hn
          have hlength : l.itemSep.length = blanks.length + 1 := congrArg List.length hsep
          simp only [List.length_append, hlength] at hn
          have htext : separated l.itemSep (dumpItems l (v :: w :: ws)) ++ ofChar ']' :: t = dumpsWith l v ++
              ofChar ',' :: (blanks ++ (separated l.itemSep (dumpItems l (w :: ws)) ++ ofChar ']' :: t)) := by
            change dumpsWith l v ++ l.itemSep ++ separated l.itemSep (dumpItems l (w :: ws)) ++ ofChar ']' :: t = _
            rw [hsep]
            simp
          have hrest := ih (List.cons_ne_nil w ws) (fun x hx => hstarts x (List.mem_cons_of_mem v hx)) hvs (n := m) (by omega)
          have hcomma : ofChar ',' ≠ ofChar ']' := by decide
          have hskip : ∀ s, skip (ofChar ',' :: s) = ofChar ',' :: s := fun s => skip_cons (by decide) _
          rw [htext]
          simp only [scanItems, hv m _ (by omega) (ends_comma _), Option.bind_eq_bind, Option.bind_some, hskip,
            if_neg hcomma, if_true, skip_spaces hblanks, hstart.skip, hrest, Option.map_some]

end Items

section Fields

theorem starts_fields {fields : List (Str × Value)} (hne : fields ≠ []) :
    Starts (separated l.itemSep (dumpFields l fields)) := by
  obtain ⟨ps, hps⟩ := separated_head (l := l) hne l.itemSep
  exact ⟨_, ps, hps, by decide, by decide, by decide⟩

theorem scanFields_field (hl : l.Spaced) {n : Nat} {k : Str} (hk : Readable l.ascii k) {v : Value}
    (hstarts : Starts (dumpsWith l v)) (hscans : Scans l v) (hn : 2 * (dumpsWith l v).length ≤ n) {q : CodePoint} {t : Str}
    (ht : Ends (q :: t)) (hq : isSpace q = false) : scanFields (n + 1) (fieldText l k v ++ q :: t) =
      if q = ofChar '\x7d' then some ([(k, v)], t)
      else if q = ofChar ',' then (scanFields n (skip t)).map fun r => ((k, v) :: r.1, r.2)
      else none := by
  obtain ⟨blanks, hsep, hblanks⟩ := hl.key
  have htext : fieldText l k v ++ q :: t = ofChar '"' ::
      (k.flatMap (escaped l.ascii) ++ ofChar '"' :: (ofChar ':' :: (blanks ++ (dumpsWith l v ++ q :: t)))) := by
    simp [fieldText, quoted, hsep]
  have hcolon : ∀ s, skip (ofChar ':' :: s) = ofChar ':' :: s := fun s => skip_cons (by decide) _
  rw [htext, scanFields, if_neg (by simp), scanString_quoted hk]
  simp only [Option.bind_eq_bind, Option.bind_some, hcolon, List.head?_cons, List.tail_cons, ne_eq, not_true_eq_false,
    if_false, skip_spaces hblanks, hstarts.skip, hscans n _ hn ht, skip_cons hq]

theorem scanFields_nested (hl : l.Spaced) {fields : List (Str × Value)} (hne : fields ≠ [])
    (hkeys : ∀ f ∈ fields, Readable l.ascii f.1) (hstarts : ∀ f ∈ fields, Starts (dumpsWith l f.2))
    (hscans : ∀ f ∈ fields, Scans l f.2) {n : Nat} (hn : 2 * (separated l.itemSep (dumpFields l fields)).length < n)
    (t : Str) : scanFields n (separated l.itemSep (dumpFields l fields) ++ ofChar '\x7d' :: t) = some (fields, t) := by
  induction fields generalizing n with
  | nil => exact absurd rfl hne
  | cons f fs ih =>
      obtain ⟨k, v⟩ := f
      obtain ⟨m, rfl⟩ : ∃ m, n = m + 1 := ⟨n - 1, by omega⟩
      obtain ⟨hk, hks⟩ := List.forall_mem_cons.mp hkeys
      obtain ⟨(hstart : Starts (dumpsWith l v)), hrests⟩ := List.forall_mem_cons.mp hstarts
      obtain ⟨(hv : Scans l v), hvs⟩ := List.forall_mem_cons.mp hscans
      have hfield : (dumpsWith l v).length ≤ (fieldText l k v).length := by
        rw [fieldText, List.length_append]
        omega
      cases fs with
      | nil =>
          change 2 * (fieldText l k v).length < m + 1 at hn
          change scanFields (m + 1) (fieldText l k v ++ ofChar '\x7d' :: t) = _
          rw [scanFields_field hl hk hstart hv (by omega) (ends_brace t) (by decide), if_pos rfl]
      | cons g gs =>
          obtain ⟨blanks, hsep, hblanks⟩ := hl.item
          change 2 * (fieldText l k v ++ l.itemSep ++ separated l.itemSep (dumpFields l (g :: gs))).length < m + 1 at hn
          have hlength : l.itemSep.length = blanks.length + 1 := congrArg List.length hsep
          simp only [List.length_append, hlength] at hn
          have htext : separated l.itemSep (dumpFields l ((k, v) :: g :: gs)) ++ ofChar '\x7d' :: t = fieldText l k v ++
              ofChar ',' :: (blanks ++ (separated l.itemSep (dumpFields l (g :: gs)) ++ ofChar '\x7d' :: t)) := by
            change fieldText l k v ++ l.itemSep ++ separated l.itemSep (dumpFields l (g :: gs)) ++ ofChar '\x7d' :: t = _
            rw [hsep]
            simp
          have hrest := ih (List.cons_ne_nil g gs) hks hrests hvs (n := m) (by omega)
          have hcomma : ofChar ',' ≠ ofChar '\x7d' := by decide
          rw [htext, scanFields_field hl hk hstart hv (by omega) (ends_comma _) (by decide), if_neg hcomma, if_pos rfl,
            skip_spaces hblanks, (starts_fields (List.cons_ne_nil g gs)).skip, hrest]
          rfl

end Fields

theorem scans_arr (hl : l.Spaced) {items : List Value} (hstarts : ∀ v ∈ items, Starts (dumpsWith l v))
    (hscans : ∀ v ∈ items, Scans l v) : Scans l (.arr items) := by
  intro n t hn ht
  have htext : dumpsWith l (.arr items) = ofChar '[' :: separated l.itemSep (dumpItems l items) ++ [ofChar ']'] := rfl
  rw [htext] at hn ⊢
  simp only [List.length_cons, List.length_append, List.length_nil] at hn
  obtain ⟨m, rfl⟩ : ∃ m, n = m + 1 := ⟨n - 1, by omega⟩
  rw [List.append_assoc, List.cons_append, List.singleton_append, scanValue, if_neg (by decide), if_neg (by decide),
    if_pos rfl]
  rcases eq_or_ne items [] with rfl | hne
  · rfl
  · have hstart := starts_items hne hstarts
    rw [hstart.skip, if_neg (hstart.head _), scanItems_nested hl hne hstarts hscans (by omega)]
    rfl

theorem scans_obj (hl : l.Spaced) {fields : List (Str × Value)} (hkeys : ∀ f ∈ fields, Readable l.ascii f.1)
    (hstarts : ∀ f ∈ fields, Starts (dumpsWith l f.2)) (hscans : ∀ f ∈ fields, Scans l f.2) : Scans l (.obj fields) := by
  intro n t hn ht
  have htext : dumpsWith l (.obj fields) = ofChar '\x7b' :: separated l.itemSep (dumpFields l fields) ++ [ofChar '\x7d'] :=
    rfl
  rw [htext] at hn ⊢
  simp only [List.length_cons, List.length_append, List.length_nil] at hn
  obtain ⟨m, rfl⟩ : ∃ m, n = m + 1 := ⟨n - 1, by omega⟩
  rw [List.append_assoc, List.cons_append, List.singleton_append, scanValue, if_neg (by decide), if_pos rfl]
  rcases eq_or_ne fields [] with rfl | hne
  · rfl
  · have hstart := starts_fields (l := l) hne
    rw [hstart.skip, if_neg (hstart.closes _), scanFields_nested hl hne hkeys hstarts hscans (by omega)]
    rfl

theorem Writable.scans (hl : l.Spaced) {v : Value} (hv : Writable l.ascii v) : Scans l v := by
  induction hv with
  | null => exact scans_null
  | bool b => exact scans_bool b
  | flat hv => exact scans_flat hv
  | arr hitems ih => exact scans_arr hl (fun v hv => (hitems v hv).starts) ih
  | obj hkeys hvalues ih => exact scans_obj hl hkeys (fun f hf => (hvalues f hf).starts) ih

theorem ends_blank {ws : Str} (hws : ∀ p ∈ ws, isSpace p = true) : Ends ws := by
  cases ws with
  | nil => nofun
  | cons p ws =>
      have hp := hws p List.mem_cons_self
      refine ends_of_not ?_ ?_ ?_ ?_ ws
      · by_contra hdigit
        rw [isSpace_digit (by simpa using hdigit)] at hp
        cases hp
      · rintro rfl
        cases hp
      · rintro rfl
        cases hp
      · rintro rfl
        cases hp

theorem loads_append_blank (hl : l.Spaced) {v : Value} (hv : Writable l.ascii v) {ws : Str}
    (hws : ∀ p ∈ ws, isSpace p = true) : loads (dumpsWith l v ++ ws) = some v := by
  have hscan := hv.scans hl (2 * (dumpsWith l v ++ ws).length + 2) ws (by rw [List.length_append]; omega) (ends_blank hws)
  have hrest := skip_spaces hws []
  rw [List.append_nil] at hrest
  rw [loads, hv.starts.skip ws, hscan]
  exact if_pos hrest

theorem loads_dumps_writable (hl : l.Spaced) {v : Value} (hv : Writable l.ascii v) : loads (dumpsWith l v) = some v := by
  have hloads := loads_append_blank hl hv (List.forall_mem_nil _)
  rwa [List.append_nil] at hloads

end Nested

end Json
