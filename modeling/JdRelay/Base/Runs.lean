import Mathlib.Tactic

namespace Runs

structure Machine (S E : Type) where
  init : S
  step : S → E → Option S

namespace Machine

variable {S E : Type} (M : Machine S E)

def exec : S → List E → Option S
  | s, [] => some s
  | s, e :: es => (M.step s e).bind (exec · es)

def IsRun (es : List E) : Prop := (M.exec M.init es).isSome

instance (es : List E) : Decidable (M.IsRun es) :=
  inferInstanceAs (Decidable ((M.exec M.init es).isSome = true))

def Reachable (s : S) : Prop := ∃ es, M.exec M.init es = some s

def Always (P : S → Prop) : S → List E → Prop
  | s, [] => P s
  | s, e :: es => P s ∧ ∀ t, M.step s e = some t → Always P t es

def Guarded (C : S → E → Prop) : S → List E → Prop
  | _, [] => True
  | s, e :: es => C s e ∧ ∀ t, M.step s e = some t → Guarded C t es

instance decidableGuarded (C : S → E → Prop) [∀ s e, Decidable (C s e)] : ∀ (es : List E) (s : S),
    Decidable (M.Guarded C s es)
  | [], _ => .isTrue trivial
  | e :: es, s =>
      match h : M.step s e with
      | none => decidable_of_iff (C s e) ⟨fun hC => ⟨hC, fun t ht => by simp [h] at ht⟩, And.left⟩
      | some t =>
          have := decidableGuarded C es t
          decidable_of_iff (C s e ∧ M.Guarded C t es)
            ⟨fun hC => ⟨hC.1, fun u hu => Option.some.inj (h.symm.trans hu) ▸ hC.2⟩, fun hC => ⟨hC.1, hC.2 t h⟩⟩

@[simp] theorem exec_nil (s : S) : M.exec s [] = some s := rfl

theorem exec_cons {s t : S} {e : E} {es : List E} :
    M.exec s (e :: es) = some t ↔ ∃ u, M.step s e = some u ∧ M.exec u es = some t :=
  Option.bind_eq_some_iff

theorem exec_append (s : S) (es fs : List E) :
    M.exec s (es ++ fs) = (M.exec s es).bind (M.exec · fs) := by
  induction es generalizing s with
  | nil => rfl
  | cons e es ih =>
      simp only [List.cons_append, exec]
      cases M.step s e with
      | none => rfl
      | some u => exact ih u

theorem exec_isSome_cons {s : S} {e : E} {es : List E} :
    (M.exec s (e :: es)).isSome ↔ ∃ u, M.step s e = some u ∧ (M.exec u es).isSome := by
  simp only [exec]
  cases M.step s e <;> simp

theorem exec_isSome_of_total (h : ∀ s e, (M.step s e).isSome) (s : S) (es : List E) : (M.exec s es).isSome := by
  induction es generalizing s with
  | nil => rfl
  | cons e es ih =>
      obtain ⟨u, hu⟩ := Option.isSome_iff_exists.mp (h s e)
      exact M.exec_isSome_cons.mpr ⟨u, hu, ih u⟩

theorem invariant_of_guarded {I : S → Prop} {C : S → E → Prop}
    (hstep : ∀ {s e t}, I s → C s e → M.step s e = some t → I t) :
    ∀ {es : List E} {s t : S}, I s → M.Guarded C s es → M.exec s es = some t → I t := by
  intro es
  induction es with
  | nil => intro s t hs _ he; cases he; exact hs
  | cons e es ih =>
      intro s t hs hC he
      obtain ⟨u, hu, hrest⟩ := M.exec_cons.mp he
      exact ih (hstep hs hC.1 hu) (hC.2 u hu) hrest

theorem guarded_mono {I : S → Prop} {C D : S → E → Prop}
    (hstep : ∀ {s e t}, I s → C s e → M.step s e = some t → I t)
    (himp : ∀ {s e t}, I s → C s e → M.step s e = some t → D s e) :
    ∀ {es : List E} {s : S}, I s → (M.exec s es).isSome → M.Guarded C s es → M.Guarded D s es := by
  intro es
  induction es with
  | nil => intro s _ _ _; trivial
  | cons e es ih =>
      intro s hs hrun hC
      obtain ⟨u, hu, hrest⟩ := M.exec_isSome_cons.mp hrun
      refine ⟨himp hs hC.1 hu, fun t ht => ?_⟩
      obtain rfl : u = t := Option.some.inj (hu.symm.trans ht)
      exact ih (hstep hs hC.1 hu) hrest (hC.2 u hu)

-- P is what either guard keeps: C by hP, and D because it admits the same steps.
theorem guarded_iff {I P : S → Prop} {C D : S → E → Prop}
    (hI : ∀ {s e t}, I s → M.step s e = some t → I t)
    (hP : ∀ {s e t}, I s → P s → C s e → M.step s e = some t → P t)
    (hCD : ∀ {s e t}, I s → P s → M.step s e = some t → (C s e ↔ D s e))
    {es : List E} {s : S} (hs : I s) (hp : P s) (hrun : (M.exec s es).isSome) :
    M.Guarded C s es ↔ M.Guarded D s es := by
  constructor
  · refine M.guarded_mono (I := fun s => I s ∧ P s) ?_ ?_ ⟨hs, hp⟩ hrun
    · rintro s e t ⟨hs, hp⟩ hc h
      exact ⟨hI hs h, hP hs hp hc h⟩
    · rintro s e t ⟨hs, hp⟩ hc h
      exact (hCD hs hp h).mp hc
  · refine M.guarded_mono (I := fun s => I s ∧ P s) ?_ ?_ ⟨hs, hp⟩ hrun
    · rintro s e t ⟨hs, hp⟩ hd h
      exact ⟨hI hs h, hP hs hp ((hCD hs hp h).mpr hd) h⟩
    · rintro s e t ⟨hs, hp⟩ hd h
      exact (hCD hs hp h).mpr hd

theorem length_add_work {I : S → Prop} {G : S → E → Prop} {work : S → Nat}
    (hI : ∀ {s e t}, I s → G s e → M.step s e = some t → I t)
    (hwork : ∀ {s e t}, I s → G s e → M.step s e = some t → work t + 1 = work s) :
    ∀ {es : List E} {s t : S}, I s → M.Guarded G s es → M.exec s es = some t → es.length + work t = work s := by
  intro es
  induction es with
  | nil =>
      intro s t _ _ ht
      cases ht
      exact Nat.zero_add _
  | cons e es ih =>
      intro s t hs hG ht
      obtain ⟨u, hu, hrest⟩ := M.exec_cons.mp ht
      have hone := hwork hs hG.1 hu
      have hall := ih (hI hs hG.1 hu) (hG.2 u hu) hrest
      rw [List.length_cons]
      omega

theorem guarded_true (s : S) (es : List E) : M.Guarded (fun _ _ => True) s es := by
  induction es generalizing s with
  | nil => trivial
  | cons e es ih => exact ⟨trivial, fun t _ => ih t⟩

theorem Guarded.and {M : Machine S E} {C : S → E → Prop} {D : E → Prop} {es : List E} {s : S} (h : M.Guarded C s es)
    (hD : ∀ e ∈ es, D e) : M.Guarded (fun s e => C s e ∧ D e) s es := by
  induction es generalizing s with
  | nil => trivial
  | cons e es ih =>
      obtain ⟨he, hes⟩ := List.forall_mem_cons.mp hD
      exact ⟨⟨h.1, he⟩, fun t ht => ih (h.2 t ht) hes⟩

theorem invariant {I : S → Prop} (hinit : I M.init)
    (hstep : ∀ {s e t}, I s → M.step s e = some t → I t) {s : S} (h : M.Reachable s) : I s := by
  obtain ⟨es, he⟩ := h
  have htrue := M.guarded_true M.init es
  exact M.invariant_of_guarded (fun hs _ => hstep hs) hinit htrue he

theorem always_of_invariant {I P : S → Prop} (hI : ∀ {s e t}, I s → M.step s e = some t → I t)
    (hP : ∀ {s}, I s → P s) {es : List E} {s : S} (hs : I s) : M.Always P s es := by
  induction es generalizing s with
  | nil => exact hP hs
  | cons e es ih => exact ⟨hP hs, fun t ht => ih (hI hs ht)⟩

theorem always_of_guarded {I P : S → Prop} {G : S → E → Prop} (hI : ∀ {s e t}, I s → G s e → M.step s e = some t → I t)
    (hP : ∀ {s}, I s → P s) {es : List E} {s : S} (hs : I s) (hG : M.Guarded G s es) : M.Always P s es := by
  induction es generalizing s with
  | nil => exact hP hs
  | cons e es ih => exact ⟨hP hs, fun t ht => ih (hI hs hG.1 ht) (hG.2 t ht)⟩

theorem Reachable.next {M : Machine S E} {s t : S} {e : E} (h : M.Reachable s)
    (hs : M.step s e = some t) : M.Reachable t := by
  obtain ⟨es, he⟩ := h
  exact ⟨es ++ [e], by simp [exec_append, he, exec, hs]⟩

theorem always_head {P : S → Prop} {s : S} {es : List E} (h : M.Always P s es) : P s := by
  cases es with
  | nil => exact h
  | cons e es => exact h.1

theorem always_exec {P : S → Prop} : ∀ {es : List E} {s t : S}, M.Always P s es → M.exec s es = some t → P t := by
  intro es
  induction es with
  | nil => intro s t h ht; cases ht; exact h
  | cons e es ih =>
      intro s t h ht
      obtain ⟨u, hu, hrest⟩ := M.exec_cons.mp ht
      exact ih (h.2 u hu) hrest

-- The invariant I holds whatever the steps that G admits do; P is what C decides, one step at a time.
theorem always_iff_guarded_of {I P : S → Prop} {G C : S → E → Prop}
    (hI : ∀ {s e t}, I s → G s e → M.step s e = some t → I t)
    (hC : ∀ {s e t}, I s → P s → G s e → M.step s e = some t → (P t ↔ C s e)) :
    ∀ {es : List E} {s : S}, I s → P s → (M.exec s es).isSome → M.Guarded G s es →
      (M.Always P s es ↔ M.Guarded C s es) := by
  intro es
  induction es with
  | nil => intro s _ hP _ _; exact ⟨fun _ => trivial, fun _ => hP⟩
  | cons e es ih =>
      rintro s hs hP hrun ⟨hG, hGs⟩
      obtain ⟨u, hu, hrest⟩ := M.exec_isSome_cons.mp hrun
      have only : ∀ t, M.step s e = some t → t = u := fun t ht => by
        rw [hu] at ht; exact (Option.some.inj ht).symm
      constructor
      · rintro ⟨-, hall⟩
        have hPu : P u := M.always_head (hall u hu)
        refine ⟨(hC hs hP hG hu).mp hPu, fun t ht => ?_⟩
        obtain rfl := only t ht
        exact (ih (hI hs hG hu) hPu hrest (hGs t hu)).mp (hall t hu)
      · rintro ⟨hc, hall⟩
        have hPu : P u := (hC hs hP hG hu).mpr hc
        refine ⟨hP, fun t ht => ?_⟩
        obtain rfl := only t ht
        exact (ih (hI hs hG hu) hPu hrest (hGs t hu)).mpr (hall t hu)

theorem always_iff_guarded {I P : S → Prop} {C : S → E → Prop}
    (hI : ∀ {s e t}, I s → M.step s e = some t → I t)
    (hC : ∀ {s e t}, I s → P s → M.step s e = some t → (P t ↔ C s e))
    {es : List E} {s : S} (hs : I s) (hP : P s) (hrun : (M.exec s es).isSome) :
    M.Always P s es ↔ M.Guarded C s es :=
  M.always_iff_guarded_of (fun hs _ h => hI hs h) (fun hs hP _ h => hC hs hP h) hs hP hrun (M.guarded_true s es)

end Machine

-- What is gained at a step is paid for by g or by what is left of the stock.
theorem sum_le_of_chain {A : Type} {R : A → A → Prop} {f g stock : A → Nat}
    (hstep : ∀ a b, R a b → f b + stock b ≤ g b + stock a) {a : A} {l : List A} (hl : List.IsChain R (a :: l)) :
    (l.map f).sum ≤ (l.map g).sum + stock a := by
  induction l generalizing a with
  | nil => exact Nat.zero_le _
  | cons b l ih =>
      obtain ⟨hab, hrest⟩ := List.isChain_cons_cons.mp hl
      have hone := hstep a b hab
      have hall := ih hrest
      rw [List.map_cons, List.map_cons, List.sum_cons, List.sum_cons]
      omega

end Runs
