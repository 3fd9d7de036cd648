import Allowance.Proofs.World.Step
import Mathlib.Data.List.Forall2

/-! # Two steps side by side

Two steps are related when, performed in related worlds, they give related results or related faults
and leave related worlds. Steps that are put together from related steps in the same way are
related. They are alike when the results and the faults are the same; a result may then be known to
have some property, and what follows has to be alike for such results only.
-/

namespace Allowance

open List (Forall₂)

namespace Checked

variable {α β γ δ : Type} {F : Fault → Fault → Prop} {S : α → β → Prop} {T : γ → δ → Prop}

/-- The checks give related values or related faults. -/
inductive Related (F : Fault → Fault → Prop) (S : α → β → Prop) : Checked α → Checked β → Prop
  | ok {a : α} {b : β} (h : S a b) : Related F S (.ok a) (.ok b)
  | error {e e' : Fault} (h : F e e') : Related F S (.error e) (.error e')

namespace Related

theorem refl {S : α → α → Prop} (hF : ∀ e, F e e) (hS : ∀ a, S a a) (x : Checked α) :
    Related F S x x := by
  cases x with
  | ok a => exact .ok (hS a)
  | error e => exact .error (hF e)

theorem bind_same {f : α → Checked γ} {g : α → Checked δ} (hF : ∀ e, F e e) (x : Checked α)
    (hfg : ∀ a, Related F T (f a) (g a)) : Related F T (x >>= f) (x >>= g) := by
  cases x with
  | ok a => exact hfg a
  | error e => exact .error (hF e)

end Related

end Checked

namespace Step

variable {α β γ δ : Type} {R : World → World → Prop} {F : Fault → Fault → Prop}

section Related

variable {S : α → β → Prop} {T : γ → δ → Prop} {left : Step α} {right : Step β}

/-- In related worlds the steps give related results or faults and leave related worlds. -/
def Related (R : World → World → Prop) (F : Fault → Fault → Prop) (S : α → β → Prop)
    (left : Step α) (right : Step β) : Prop :=
  ∀ w w', R w w' → Checked.Related F S (left.perform w).1 (right.perform w').1 ∧
    R (left.perform w).2 (right.perform w').2

namespace Related

theorem pure {a : α} {b : β} (h : S a b) : Related R F S (Pure.pure a) (Pure.pure b) :=
  fun _ _ hw => ⟨.ok h, hw⟩

theorem throw {e e' : Fault} (h : F e e') :
    Related R F S (MonadExcept.throw e) (MonadExcept.throw e') := fun _ _ hw => ⟨.error h, hw⟩

theorem lift {x : Checked α} {y : Checked β} (h : Checked.Related F S x y) :
    Related R F S (liftM x) (liftM y) := by
  intro w w' hw
  rw [perform_lift, perform_lift]
  exact ⟨h, hw⟩

theorem ofChecked {x : Checked α} {y : Checked β} (h : Checked.Related F S x y) :
    Related R F S (Step.ofChecked x) (Step.ofChecked y) := lift h

theorem bind {f : α → Step γ} {g : β → Step δ} (h : Related R F S left right)
    (hfg : ∀ a b, S a b → Related R F T (f a) (g b)) :
    Related R F T (left >>= f) (right >>= g) := by
  intro w w' hw
  obtain ⟨hresult, hworld⟩ := h w w' hw
  rw [perform_bind, perform_bind]
  rcases hleft : left.perform w with ⟨x, v⟩
  rcases hright : right.perform w' with ⟨y, v'⟩
  rw [hleft, hright] at hresult hworld
  cases hresult with
  | ok hab => exact hfg _ _ hab v v' hworld
  | error he => exact ⟨.error he, hworld⟩

theorem map {f : α → γ} {g : β → δ} (h : Related R F S left right)
    (hfg : ∀ a b, S a b → T (f a) (g b)) : Related R F T (f <$> left) (g <$> right) := by
  rw [← bind_pure_comp, ← bind_pure_comp]
  exact h.bind fun a b hab => .pure (hfg a b hab)

theorem refuse {c : Prop} [Decidable c] {e e' : Fault} {k : γ → Step α} {k' : γ → Step β}
    (he : F e e') (h : Related R F S left right) :
    Related R F S (if c then MonadExcept.throw e >>= k else left)
      (if c then MonadExcept.throw e' >>= k' else right) := by
  split
  · intro w w' hw
    simpa using ⟨.error he, hw⟩
  · exact h

theorem tryCatch {handler : Fault → Step α} {handler' : Fault → Step β}
    (h : Related R F S left right)
    (hhandler : ∀ e e', F e e' → Related R F S (handler e) (handler' e')) :
    Related R F S (MonadExcept.tryCatch left handler) (MonadExcept.tryCatch right handler') := by
  intro w w' hw
  obtain ⟨hresult, hworld⟩ := h w w' hw
  rw [perform_tryCatch, perform_tryCatch]
  rcases hleft : left.perform w with ⟨x, v⟩
  rcases hright : right.perform w' with ⟨y, v'⟩
  rw [hleft, hright] at hresult hworld
  cases hresult with
  | ok hab => exact ⟨.ok hab, hworld⟩
  | error he => exact hhandler _ _ he v v' hworld

theorem mapM {xs : List α} {ys : List β} {f : α → Step γ} {g : β → Step δ} (h : Forall₂ S xs ys)
    (hfg : ∀ a b, S a b → Related R F T (f a) (g b)) :
    Related R F (Forall₂ T) (xs.mapM f) (ys.mapM g) := by
  induction h with
  | nil => exact .pure .nil
  | cons hab _ ih =>
    rw [List.mapM_cons, List.mapM_cons]
    refine .bind (hfg _ _ hab) fun c d hcd => ?_
    exact .bind ih fun cs ds hcsds => .pure (.cons hcd hcsds)

end Related

end Related

section Alike

variable {P : α → Prop} {Q : β → Prop} {left right : Step α} {f g : α → Step β}

/-- In related worlds the steps give the same result and leave related worlds. A result that is no
fault has the property. -/
def Alike (R : World → World → Prop) (P : α → Prop) (left right : Step α) : Prop :=
  ∀ w w', R w w' → ∃ result v v', left.perform w = (result, v) ∧ right.perform w' = (result, v') ∧
    R v v' ∧ ∀ a, result = .ok a → P a

theorem related_eq_iff {x y : Checked α} : Checked.Related Eq (fun a b => a = b ∧ P a) x y ↔
    y = x ∧ ∀ a, x = .ok a → P a := by
  constructor
  · rintro (⟨rfl, ha⟩ | rfl)
    · refine ⟨rfl, ?_⟩
      rintro _ ⟨⟩
      exact ha
    · exact ⟨rfl, nofun⟩
  · rintro ⟨rfl, hP⟩
    cases y with
    | ok a => exact .ok ⟨rfl, hP a rfl⟩
    | error e => exact .error rfl

theorem alike_iff : Alike R P left right ↔ Related R Eq (fun a b => a = b ∧ P a) left right := by
  refine forall₃_congr fun w w' _ => ?_
  rw [related_eq_iff]
  constructor
  · rintro ⟨result, v, v', hleft, hright, hv, ha⟩
    rw [hleft, hright]
    exact ⟨⟨rfl, ha⟩, hv⟩
  · rintro ⟨⟨hright, ha⟩, hv⟩
    exact ⟨_, (left.perform w).2, (right.perform w').2, rfl, Prod.ext hright rfl, hv, ha⟩

namespace Alike

theorem pure {a : α} (h : P a) : Alike R P (Pure.pure a) (Pure.pure a) :=
  alike_iff.mpr (.pure ⟨rfl, h⟩)

theorem throw (e : Fault) : Alike R P (MonadExcept.throw e) (MonadExcept.throw e) :=
  alike_iff.mpr (.throw rfl)

theorem lift (r : Checked α) (h : ∀ a, r = .ok a → P a) : Alike R P (liftM r) (liftM r) :=
  alike_iff.mpr (.lift (related_eq_iff.mpr ⟨rfl, h⟩))

theorem ofChecked (r : Checked α) (h : ∀ a, r = .ok a → P a) :
    Alike R P (Step.ofChecked r) (Step.ofChecked r) := lift r h

theorem bind (h : Alike R P left right) (hf : ∀ a, P a → Alike R Q (f a) (g a)) :
    Alike R Q (left >>= f) (right >>= g) := by
  refine alike_iff.mpr ((alike_iff.mp h).bind ?_)
  rintro a _ ⟨rfl, ha⟩
  exact alike_iff.mp (hf a ha)

theorem map {k : α → β} (h : Alike R P left right) (hk : ∀ a, P a → Q (k a)) :
    Alike R Q (k <$> left) (k <$> right) :=
  alike_iff.mpr ((alike_iff.mp h).map fun a _ hab => ⟨congrArg k hab.1, hk a hab.2⟩)

theorem refuse {c : Prop} [Decidable c] {e : Fault} {k k' : β → Step α}
    (h : Alike R P left right) :
    Alike R P (if c then MonadExcept.throw e >>= k else left)
      (if c then MonadExcept.throw e >>= k' else right) :=
  alike_iff.mpr (.refuse rfl (alike_iff.mp h))

theorem tryCatch {handler handler' : Fault → Step α} (h : Alike R P left right)
    (hhandler : ∀ e, Alike R P (handler e) (handler' e)) :
    Alike R P (MonadExcept.tryCatch left handler) (MonadExcept.tryCatch right handler') := by
  refine alike_iff.mpr ((alike_iff.mp h).tryCatch ?_)
  rintro e _ rfl
  exact alike_iff.mp (hhandler e)

theorem mapM {xs : List α} (h : ∀ a ∈ xs, Alike R Q (f a) (g a)) :
    Alike R (fun _ => True) (xs.mapM f) (xs.mapM g) := by
  induction xs with
  | nil => exact .pure trivial
  | cons x xs ih =>
    rw [List.mapM_cons, List.mapM_cons]
    refine .bind (h x List.mem_cons_self) fun b _ => ?_
    exact .bind (ih fun a ha => h a (List.mem_cons_of_mem _ ha)) fun bs _ => .pure trivial

end Alike

end Alike

end Step

end Allowance
