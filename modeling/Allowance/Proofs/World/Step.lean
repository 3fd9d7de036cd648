import Allowance.World.Basic

/-! # What steps lead to

A step that is performed in a world gives a result or a fault, and a world after it. The equations
take a step apart into the ones it consists of; a step leads somewhere when its parts do, one after
the other.
-/

namespace Allowance.Step

variable {α β : Type} {step : Step α} {f : α → Step β} {w w' : World} {a : α} {e : Fault}

theorem perform_bind : (step >>= f).perform w =
    match step.perform w with
    | (.ok a, w') => (f a).perform w'
    | (.error e, w') => (.error e, w') := by
  simp only [perform, ExceptT.run_bind, StateT.run_bind]
  cases h : StateT.run (ExceptT.run step) w with
  | mk res w' => cases res <;> rfl

theorem perform_bind_of_ok (h : step.perform w = (.ok a, w')) :
    (step >>= f).perform w = (f a).perform w' := by
  rw [perform_bind, h]

@[simp] theorem perform_map {g : α → β} :
    (g <$> step).perform w = ((step.perform w).1.map g, (step.perform w).2) := by
  rw [← bind_pure_comp, perform_bind]
  split <;> rename_i hp <;> simp [hp, Except.map] <;> rfl

@[simp] theorem perform_pure : (pure a : Step α).perform w = (.ok a, w) := rfl

@[simp] theorem perform_throw : (throw e : Step α).perform w = (.error e, w) := rfl

@[simp] theorem perform_ofChecked {r : Checked α} : (ofChecked r).perform w = (r, w) := by
  cases r <;> rfl

@[simp] theorem perform_lift {r : Checked α} : (liftM r : Step α).perform w = (r, w) :=
  perform_ofChecked

theorem perform_bind_eq_ok {b : β} : (step >>= f).perform w = (.ok b, w') ↔
    ∃ a u, step.perform w = (.ok a, u) ∧ (f a).perform u = (.ok b, w') := by
  rw [perform_bind]
  constructor
  · intro h
    split at h
    · rename_i a u hp
      exact ⟨a, u, hp, h⟩
    · cases h
  · rintro ⟨a, u, hp, h⟩
    rw [hp]
    exact h

theorem perform_lift_eq_ok {r : Checked α} :
    (liftM r : Step α).perform w = (.ok a, w') ↔ r = .ok a ∧ w = w' := by
  rw [perform_lift, Prod.mk.injEq]

theorem lift_ok (a : α) : (liftM (.ok a : Checked α) : Step α) = pure a := rfl

theorem lift_bind (r : Checked α) (g : α → Checked β) :
    (liftM (r >>= g) : Step β) = (liftM r >>= fun a => liftM (g a)) := by
  cases r <;> rfl

@[simp] theorem perform_now :
    now.perform w = (.ok (w.sources.time w.times), { w with times := w.times + 1 }) := rfl

@[simp] theorem perform_freshId :
    freshId.perform w = (.ok (w.sources.id w.ids), { w with ids := w.ids + 1 }) := rfl

@[simp] theorem perform_log {level : Level} {logger message : String} :
    (log level logger message).perform w =
      (.ok (), { w with log := w.log ++ [⟨level, logger, message⟩] }) := rfl

@[simp] theorem perform_getThe : (getThe World : Step World).perform w = (.ok w, w) := rfl

@[simp] theorem perform_get : (MonadState.get : Step World).perform w = (.ok w, w) := rfl

theorem perform_tryCatch {step : Step α} {handler : Fault → Step α} :
    (tryCatch step handler).perform w =
      match step.perform w with
      | (.ok a, w') => (.ok a, w')
      | (.error e, w') => (handler e).perform w' := by
  unfold perform ExceptT.run StateT.run
  simp only [tryCatch, tryCatchThe, MonadExceptOf.tryCatch, ExceptT.tryCatch, ExceptT.mk, bind,
    StateT.bind]
  cases step w with
  | mk res w' => cases res <;> rfl

/-- What a step leads to: what holds of its result and the world after it, and what of its fault and
the world after it. -/
def Leads (step : Step α) (w : World) (ok : α → World → Prop) (bad : Fault → World → Prop) : Prop :=
  match step.perform w with
  | (.ok a, w') => ok a w'
  | (.error e, w') => bad e w'

namespace Leads

variable {ok : β → World → Prop} {good : α → World → Prop} {bad : Fault → World → Prop}

theorem bind (h : step.Leads w (fun a w' => (f a).Leads w' ok bad) bad) :
    (step >>= f).Leads w ok bad := by
  unfold Leads at *
  rw [perform_bind]
  split at h <;> rename_i hp <;> simpa [hp] using h

theorem of_ok (hp : step.perform w = (.ok a, w')) (h : good a w') : step.Leads w good bad := by
  simpa [Leads, hp] using h

theorem of_error (hp : step.perform w = (.error e, w')) (h : bad e w') :
    step.Leads w good bad := by
  simpa [Leads, hp] using h

theorem pure (h : good a w) : (Pure.pure a : Step α).Leads w good bad := h

theorem throw (h : bad e w) : (MonadExcept.throw e : Step α).Leads w good bad := h

theorem lift {r : Checked α} (hok : ∀ a, r = .ok a → good a w) (hbad : ∀ e, bad e w) :
    (liftM r : Step α).Leads w good bad := by
  cases r with
  | ok a => exact hok a rfl
  | error e => exact hbad e

theorem map {g : α → β} (h : step.Leads w (fun a w' => ok (g a) w') bad) :
    (g <$> step).Leads w ok bad := by
  unfold Leads at *
  rw [perform_map]
  split at h <;> rename_i hp <;> simpa [hp, Except.map] using h

theorem tryCatch {handler : Fault → Step α}
    (h : step.Leads w good fun e w' => (handler e).Leads w' good bad) :
    (MonadExcept.tryCatch step handler).Leads w good bad := by
  unfold Leads at *
  rw [perform_tryCatch]
  split at h <;> rename_i hp <;> simpa [hp] using h

theorem mono {good' : α → World → Prop} {bad' : Fault → World → Prop}
    (h : step.Leads w good bad) (hok : ∀ a w', good a w' → good' a w')
    (hbad : ∀ e w', bad e w' → bad' e w') : step.Leads w good' bad' := by
  unfold Leads at *
  split at h
  · exact hok _ _ h
  · exact hbad _ _ h

theorem performed (h : step.Leads w good bad) :
    step.Leads w (fun a w' => step.perform w = (.ok a, w') ∧ good a w') bad := by
  unfold Leads at *
  split at h <;> rename_i hp
  · exact ⟨hp, h⟩
  · exact h

theorem result {P : Checked α → World → Prop}
    (h : step.Leads w (fun a w' => P (.ok a) w') fun e w' => P (.error e) w') :
    P (step.perform w).1 (step.perform w).2 := by
  unfold Leads at h
  split at h <;> rename_i hp <;> rw [hp] <;> exact h

/-- A step leads to a result or to a fault. -/
theorem ok_or_error (h : step.Leads w good bad) :
    (∃ a w', step.perform w = (.ok a, w') ∧ good a w') ∨
      ∃ e w', step.perform w = (.error e, w') ∧ bad e w' := by
  unfold Leads at h
  split at h <;> rename_i hp
  · exact Or.inl ⟨_, _, hp, h⟩
  · exact Or.inr ⟨_, _, hp, h⟩

theorem succeeds (h : step.Leads w good fun _ _ => False) :
    ∃ a w', step.perform w = (.ok a, w') := by
  unfold Leads at h
  split at h <;> rename_i hp
  · exact ⟨_, _, hp⟩
  · exact h.elim

theorem world {P : World → Prop} (h : step.Leads w good bad)
    (hok : ∀ a w', good a w' → P w') (hbad : ∀ e w', bad e w' → P w') :
    P (step.perform w).2 := by
  unfold Leads at h
  split at h <;> rename_i hp <;> rw [hp]
  · exact hok _ _ h
  · exact hbad _ _ h

end Leads

section Logs

variable {r : Checked α} {g : α → Checked β}

def Logs (step : Step α) (r : Checked α) : Prop :=
  ∀ w, ∃ log, step.perform w = (r, { w with log })

namespace Logs

theorem result (h : step.Logs r) (w : World) : (step.perform w).1 = r := by
  obtain ⟨log, hperform⟩ := h w
  rw [hperform]

theorem lift (r : Checked α) : Logs (liftM r : Step α) r := fun w => ⟨w.log, perform_lift⟩

theorem log {level : Level} {logger message : String} :
    (Step.log level logger message).Logs (.ok ()) := fun _ => ⟨_, perform_log⟩

theorem bind (h : step.Logs r) (hf : ∀ a, (f a).Logs (g a)) : (step >>= f).Logs (r >>= g) := by
  intro w
  obtain ⟨log, hstep⟩ := h w
  rw [perform_bind, hstep]
  cases r with
  | error e => exact ⟨log, rfl⟩
  | ok a =>
    obtain ⟨log', hrest⟩ := hf a { w with log }
    exact ⟨log', hrest⟩

theorem pure (a : α) : Logs (Pure.pure a : Step α) (.ok a) := fun w => ⟨w.log, rfl⟩

theorem throw (e : Fault) : Logs (MonadExcept.throw e : Step α) (.error e) := fun w => ⟨w.log, rfl⟩

theorem refuse {c : Prop} [Decidable c] {e : Fault} {f : β → Step α} (h : step.Logs r) :
    (if c then MonadExcept.throw e >>= f else step).Logs (if c then .error e else r) := by
  split
  · exact fun w => ⟨w.log, by simp⟩
  · exact h

end Logs

end Logs

end Allowance.Step
