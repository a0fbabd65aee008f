import Mathlib.Tactic

namespace Text

abbrev CodePoint := Fin 0x110000

instance codePoint_neZero : NeZero 0x110000 := ⟨by decide⟩

abbrev Str := List CodePoint

abbrev Bytes := List UInt8

theorem notMem_of_all {A : Type} {p : A → Bool} {a : A} (ha : p a = false) {s : List A} (h : s.all p = true) : a ∉ s :=
  fun hmem => Bool.false_ne_true (ha.symm.trans (List.all_eq_true.mp h a hmem))

theorem char_lt (c : Char) : c.toNat < 0x110000 := by
  have h := c.valid
  simp only [UInt32.isValidChar, Nat.isValidChar] at h
  change c.val.toNat < _
  omega

def ofChar (c : Char) : CodePoint := ⟨c.toNat, char_lt c⟩

def str (s : String) : Str := s.toList.map ofChar

-- A Python str may hold lone surrogates; these have no Char and no UTF-8 form.
def toChar? (p : CodePoint) : Option Char :=
  if h : p.val.isValidChar then some (Char.ofNatAux p.val h) else none

theorem toChar?_ofChar (c : Char) : toChar? (ofChar c) = some c := by
  have hv : (ofChar c).val.isValidChar := c.valid
  rw [toChar?, dif_pos hv, Option.some.injEq]
  exact Char.ext rfl

theorem ofChar_of_toChar? {p : CodePoint} {c : Char} (h : toChar? p = some c) : ofChar c = p := by
  by_cases hv : p.val.isValidChar
  · rw [toChar?, dif_pos hv] at h
    cases h
    exact Fin.ext rfl
  · rw [toChar?, dif_neg hv] at h
    cases h

theorem mapM_toChar? {s : Str} {cs : List Char} : s.mapM toChar? = some cs ↔ cs.map ofChar = s := by
  induction s generalizing cs with
  | nil => cases cs <;> simp
  | cons p s ih =>
      simp only [List.mapM_cons, Option.pure_def, Option.bind_eq_bind, Option.bind_eq_some_iff,
        Option.some.injEq]
      constructor
      · rintro ⟨c, hc, ds, hds, rfl⟩
        simp [ofChar_of_toChar? hc, ih.mp hds]
      · intro h
        cases cs with
        | nil => simp at h
        | cons c ds =>
            simp only [List.map_cons, List.cons.injEq] at h
            exact ⟨c, h.1 ▸ toChar?_ofChar c, ds, ih.mpr h.2, rfl⟩

def encodeUtf8 (s : Str) : Option Bytes := (s.mapM toChar?).map (·.flatMap String.utf8EncodeChar)

def decodeUtf8 (b : Bytes) : Option Str :=
  b.toByteArray.utf8Decode?.map (·.toList.map ofChar)

theorem decode_encode {s : Str} {b : Bytes} (h : encodeUtf8 s = some b) :
    decodeUtf8 b = some s := by
  obtain ⟨cs, hcs, rfl⟩ := Option.map_eq_some_iff.mp h
  have hb : (cs.flatMap String.utf8EncodeChar).toByteArray.utf8Decode? = some cs.toArray :=
    List.utf8Decode?_utf8Encode
  simp [decodeUtf8, hb, mapM_toChar?.mp hcs]

theorem encode_decode {s : Str} {b : Bytes} (h : decodeUtf8 b = some s) : encodeUtf8 s = some b := by
  obtain ⟨cs, hcs, rfl⟩ := Option.map_eq_some_iff.mp h
  have hsome : b.toByteArray.utf8Decode?.isSome = true := by rw [hcs]; rfl
  have hget : b.toByteArray.utf8Decode?.get hsome = cs := by simp only [hcs, Option.get_some]
  have hbytes : cs.toList.utf8Encode = b.toByteArray := hget ▸ ByteArray.utf8Encode_get_utf8Decode?
  have hdata : (cs.toList.flatMap String.utf8EncodeChar).toArray = b.toArray := by
    rw [← List.data_toByteArray, ← List.data_toByteArray]
    exact congrArg ByteArray.data hbytes
  rw [encodeUtf8, mapM_toChar?.mpr rfl, Option.map_some, Option.some.injEq]
  exact List.toArray_inj hdata

theorem encode_injective {s t : Str} {b : Bytes} (hs : encodeUtf8 s = some b)
    (ht : encodeUtf8 t = some b) : s = t := by
  have h := decode_encode hs
  rw [decode_encode ht] at h
  exact (Option.some.inj h).symm

theorem encodeUtf8_append {s t : Str} {b : Bytes} :
    encodeUtf8 (s ++ t) = some b ↔ ∃ x y, encodeUtf8 s = some x ∧ encodeUtf8 t = some y ∧ b = x ++ y := by
  simp only [encodeUtf8, List.mapM_append, Option.map_eq_some_iff, bind, Option.bind_eq_some_iff, pure,
    Option.some.injEq]
  constructor
  · rintro ⟨_, ⟨cs, hcs, ds, hds, rfl⟩, rfl⟩
    exact ⟨_, _, ⟨cs, hcs, rfl⟩, ⟨ds, hds, rfl⟩, List.flatMap_append⟩
  · rintro ⟨_, _, ⟨cs, hcs, rfl⟩, ⟨ds, hds, rfl⟩, rfl⟩
    exact ⟨_, ⟨cs, hcs, ds, hds, rfl⟩, List.flatMap_append⟩

theorem length_encodeUtf8_le {s : Str} {b : Bytes} (h : encodeUtf8 s = some b) : b.length ≤ 4 * s.length := by
  obtain ⟨cs, hcs, rfl⟩ := Option.map_eq_some_iff.mp h
  rw [← mapM_toChar?.mp hcs, List.length_map]
  clear h hcs
  induction cs with
  | nil => exact Nat.zero_le _
  | cons c cs ih =>
      have hc := c.utf8Size_le_four
      rw [List.flatMap_cons, List.length_append, String.length_utf8EncodeChar, List.length_cons]
      omega

theorem length_encodeUtf8_ascii {s : Str} {b : Bytes} (h : encodeUtf8 s = some b) (hs : ∀ p ∈ s, p.val < 128) :
    b.length = s.length := by
  obtain ⟨cs, hcs, rfl⟩ := Option.map_eq_some_iff.mp h
  rw [← mapM_toChar?.mp hcs] at hs ⊢
  clear h hcs
  induction cs with
  | nil => rfl
  | cons c cs ih =>
      obtain ⟨hc, hcs⟩ := List.forall_mem_cons.mp hs
      have hval : c.val.toNat < 128 := hc
      have hsize : c.utf8Size = 1 := Char.utf8Size_eq_one_iff.mpr (UInt32.le_iff_toNat_le.mpr (Nat.le_of_lt_succ hval))
      rw [List.flatMap_cons, List.length_append, String.length_utf8EncodeChar, hsize, ih hcs, List.map_cons,
        List.length_cons, Nat.add_comm]

def Scalar (s : Str) : Prop := ∀ p ∈ s, (toChar? p).isSome = true

instance (s : Str) : Decidable (Scalar s) :=
  decidable_of_iff ((s.all fun p => (toChar? p).isSome) = true) List.all_eq_true

theorem scalar_iff {s : Str} : (encodeUtf8 s).isSome = true ↔ Scalar s := by
  rw [encodeUtf8, Option.isSome_map]
  unfold Scalar
  induction s with
  | nil => simp
  | cons p s ih =>
      rw [List.forall_mem_cons, ← ih]
      cases hp : toChar? p <;> cases hs : s.mapM toChar? <;> simp [List.mapM_cons, hp, hs]

theorem scalar_str (s : String) : Scalar (str s) := by
  intro p hp
  obtain ⟨c, -, rfl⟩ := List.mem_map.mp hp
  rw [toChar?_ofChar]
  rfl

theorem Scalar.append {s t : Str} (hs : Scalar s) (ht : Scalar t) : Scalar (s ++ t) :=
  fun p hp => (List.mem_append.mp hp).elim (hs p) (ht p)

section Join

variable {A : Type}

def join (sep : A) (fields : List (List A)) : List A := [sep].intercalate fields

@[simp] theorem join_singleton (sep : A) (x : List A) : join sep [x] = x := by simp [join, List.intercalate]

theorem join_cons_cons (sep : A) (x y : List A) (ys : List (List A)) :
    join sep (x :: y :: ys) = x ++ sep :: join sep (y :: ys) := by
  simp [join, List.intercalate, List.intersperse]

theorem mem_join {sep a : A} {xs : List (List A)} (h : a ∈ join sep xs) : a = sep ∨ ∃ x ∈ xs, a ∈ x := by
  induction xs with
  | nil => exact absurd h List.not_mem_nil
  | cons x xs ih =>
      cases xs with
      | nil =>
          rw [join_singleton] at h
          exact .inr ⟨x, List.mem_cons_self, h⟩
      | cons y ys =>
          rw [join_cons_cons] at h
          rcases List.mem_append.mp h with h | h
          · exact .inr ⟨x, List.mem_cons_self, h⟩
          rcases List.mem_cons.mp h with h | h
          · exact .inl h
          rcases ih h with h | ⟨z, hz, hm⟩
          · exact .inl h
          · exact .inr ⟨z, List.mem_cons_of_mem _ hz, hm⟩

theorem subset_join {sep : A} {x : List A} {xs : List (List A)} (h : x ∈ xs) : x ⊆ join sep xs := by
  induction xs with
  | nil => cases h
  | cons y ys ih =>
      cases ys with
      | nil =>
          rw [List.mem_singleton.mp h, join_singleton]
          exact List.Subset.refl _
      | cons z zs =>
          rw [join_cons_cons]
          rcases List.mem_cons.mp h with rfl | h
          · exact List.subset_append_left _ _
          · exact fun a ha => List.mem_append_right _ (List.mem_cons_of_mem _ (ih h ha))

theorem count_join [DecidableEq A] (sep : A) (x : List A) (xs : List (List A)) :
    (join sep (x :: xs)).count sep = xs.length + ((x :: xs).map (·.count sep)).sum := by
  induction xs generalizing x with
  | nil => simp [join, List.intercalate]
  | cons y ys ih =>
      rw [join_cons_cons, List.count_append, List.count_cons_self, ih y]
      simp only [List.map_cons, List.sum_cons, List.length_cons]
      omega

theorem not_mem_fields [DecidableEq A] {sep : A} {xs : List (List A)}
    (h : (xs.map (·.count sep)).sum = 0) : ∀ x ∈ xs, sep ∉ x := by
  intro x hx hmem
  have hz : ∀ n ∈ xs.map (·.count sep), n = 0 := List.sum_eq_zero_iff.mp h
  have hpos := List.count_pos_iff.mpr hmem
  have := hz _ (List.mem_map_of_mem hx)
  omega

theorem sum_count_eq_zero [DecidableEq A] {sep : A} {ys : List (List A)}
    (h : ∀ y ∈ ys, sep ∉ y) : (ys.map (·.count sep)).sum = 0 := by
  refine List.sum_eq_zero fun n hn => ?_
  obtain ⟨y, hy, rfl⟩ := List.mem_map.mp hn
  exact List.count_eq_zero.mpr (h y hy)

-- The left fields are arbitrary: equal numbers of separators leave no room for one inside a field.
theorem join_injective [DecidableEq A] {sep : A} {xs ys : List (List A)}
    (hlen : xs.length = ys.length) (hclean : ∀ y ∈ ys, sep ∉ y) (h : join sep xs = join sep ys) :
    xs = ys := by
  cases xs with
  | nil => exact (List.length_eq_zero_iff.mp hlen.symm).symm
  | cons x xs =>
      cases ys with
      | nil => simp at hlen
      | cons y ys =>
          have hcount := congrArg (·.count sep) h
          simp only [count_join, sum_count_eq_zero hclean] at hcount
          have hx : ∀ z ∈ x :: xs, sep ∉ z := by
            refine not_mem_fields ?_
            simp only [List.length_cons] at hlen
            omega
          rw [← List.splitOn_intercalate sep hx (List.cons_ne_nil _ _)]
          exact (congrArg (List.splitOn sep) h).trans
            (List.splitOn_intercalate sep hclean (List.cons_ne_nil _ _))

end Join

theorem scalar_join {sep : CodePoint} (hsep : Scalar [sep]) {fields : List Str} (h : ∀ f ∈ fields, Scalar f) :
    Scalar (join sep fields) := by
  intro p hp
  rcases mem_join hp with rfl | ⟨f, hf, hpf⟩
  · exact hsep p List.mem_cons_self
  · exact h f hf p hpf

theorem scalar_join_iff {sep : CodePoint} (hsep : Scalar [sep]) {fields : List Str} :
    Scalar (join sep fields) ↔ ∀ f ∈ fields, Scalar f :=
  ⟨fun h _ hf p hp => h p (subset_join hf hp), scalar_join hsep⟩

end Text
