import Allowance.Proofs.World.Step

/-! # What steps leave alone

A frame says what may become of a world: nothing may, and one thing after another may. A step stays
within a frame if what it does stays within it, whether the step succeeds or fails, and then so do
steps that follow one another. One frame is for steps that write nothing, one for steps that ask
nobody, and one for steps that do nothing but ask, and only for some things.
-/

namespace Allowance

namespace Call

def isPost : Call → Bool
  | post .. => true
  | _ => false

def isRequest : Call → Bool
  | post .. => true
  | get .. => true
  | _ => false

end Call

namespace World

structure Kept (w w' : World) : Prop where
  disk : w'.disk = w.disk
  shelf : w'.shelf = w.shelf

structure Unasked (w w' : World) : Prop where
  sources : w'.sources = w.sources
  calls : w'.calls = w.calls
  replies : w'.replies = w.replies
  times : w.times ≤ w'.times

theorem Unasked.now {w w' : World} (h : w.Unasked w') :
    w.Unasked { w' with times := w'.times + 1 } :=
  ⟨h.sources, h.calls, h.replies, Nat.le_succ_of_le h.times⟩

def Shows (w : World) (now : Number) : Prop := ∃ n, w.times ≤ n ∧ w.sources.time n = now

theorem shows_next (w : World) : w.Shows (w.sources.time w.times) := ⟨w.times, Nat.le_refl _, rfl⟩

theorem Shows.of_later {w w' : World} {now : Number} (h : w'.Shows now)
    (hsources : w'.sources = w.sources) (htimes : w.times ≤ w'.times) : w.Shows now := by
  obtain ⟨n, hn, hnow⟩ := h
  exact ⟨n, Nat.le_trans htimes hn, by rwa [← hsources]⟩

theorem Unasked.shows {w w' : World} {now : Number} (h : w.Unasked w') (hnow : w'.Shows now) :
    w.Shows now :=
  hnow.of_later h.sources h.times

/-- Calls of a kind were made, and otherwise only the log may have grown. -/
structure Asks (kind : Call → Bool) (w w' : World) : Prop extends Kept w w' where
  sources : w'.sources = w.sources
  times : w'.times = w.times
  ids : w'.ids = w.ids
  calls : ∃ made, w'.calls = w.calls ++ made ∧ (∀ call ∈ made, kind call = true) ∧
    w'.replies = w.replies + made.countP Call.isRequest

theorem Asks.shows {kind : Call → Bool} {w w' : World} {now : Number} (h : w.Asks kind w')
    (hnow : w'.Shows now) : w.Shows now :=
  hnow.of_later h.sources (Nat.le_of_eq h.times.symm)

end World

structure Frame where
  Allows : World → World → Prop
  refl : ∀ w, Allows w w
  trans : ∀ {u v w}, Allows u v → Allows v w → Allows u w

namespace Frame

def kept : Frame where
  Allows := World.Kept
  refl _ := ⟨rfl, rfl⟩
  trans h h' := ⟨h'.disk.trans h.disk, h'.shelf.trans h.shelf⟩

def unasked : Frame where
  Allows := World.Unasked
  refl _ := ⟨rfl, rfl, rfl, Nat.le_refl _⟩
  trans h h' := ⟨h'.sources.trans h.sources, h'.calls.trans h.calls, h'.replies.trans h.replies,
    Nat.le_trans h.times h'.times⟩

def asks (kind : Call → Bool) : Frame where
  Allows := World.Asks kind
  refl _ := ⟨⟨rfl, rfl⟩, rfl, rfl, rfl, [], by simp⟩
  trans {u v w} h h' := by
    obtain ⟨made, hcalls, hkind, hreplies⟩ := h.calls
    obtain ⟨made', hcalls', hkind', hreplies'⟩ := h'.calls
    refine ⟨kept.trans h.toKept h'.toKept, h'.sources.trans h.sources, h'.times.trans h.times,
      h'.ids.trans h.ids, made ++ made', ?_, ?_, ?_⟩
    · rw [hcalls', hcalls, List.append_assoc]
    · exact fun call hcall => (List.mem_append.mp hcall).elim (hkind call) (hkind' call)
    · rw [hreplies', hreplies, List.countP_append, Nat.add_assoc]

end Frame

namespace Step

variable {α β : Type} {F : Frame} {step : Step α} {f : α → Step β} {w w' : World}

def Within (F : Frame) (step : Step α) : Prop := ∀ w, F.Allows w (step.perform w).2

namespace Within

theorem after (h : step.Within F) {result : Checked α} (hp : step.perform w = (result, w')) :
    F.Allows w w' := by
  have hallows := h w
  rwa [hp] at hallows

theorem of_reads (h : ∀ w, (step.perform w).2 = w) : step.Within F := by
  intro w
  rw [h]
  exact F.refl w

theorem pure (a : α) : Within F (Pure.pure a : Step α) := fun w => F.refl w

theorem throw (e : Fault) : Within F (MonadExcept.throw e : Step α) := fun w => F.refl w

theorem ofChecked (r : Checked α) : Within F (Step.ofChecked r) := of_reads fun _ => by simp

theorem lift (r : Checked α) : Within F (liftM r : Step α) := ofChecked r

theorem bind (h : step.Within F) (hf : ∀ a, (f a).Within F) : (step >>= f).Within F := by
  intro w
  have hstep := h w
  rw [perform_bind]
  split <;> rename_i hp <;> rw [hp] at hstep
  · exact F.trans hstep (hf _ _)
  · exact hstep

theorem map (h : step.Within F) (g : α → β) : (g <$> step).Within F := by
  intro w
  rw [perform_map]
  exact h w

theorem refuse {c : Prop} [Decidable c] {e : Fault} {f : β → Step α} (h : step.Within F) :
    (if c then MonadExcept.throw e >>= f else step).Within F := by
  split
  · exact .of_reads fun w => by simp
  · exact h

theorem tryCatch {handler : Fault → Step α} (h : step.Within F)
    (hhandler : ∀ e, (handler e).Within F) : (MonadExcept.tryCatch step handler).Within F := by
  intro w
  have hstep := h w
  rw [perform_tryCatch]
  split <;> rename_i hp <;> rw [hp] at hstep
  · exact hstep
  · exact F.trans hstep (hhandler _ _)

end Within

theorem Leads.within {ok : α → World → Prop} {bad : Fault → World → Prop}
    (h : step.Leads w ok bad) (hwithin : step.Within F) :
    step.Leads w (fun a w' => ok a w' ∧ F.Allows w w') fun e w' => bad e w' ∧ F.Allows w w' := by
  have hallows := hwithin w
  unfold Leads at *
  split at h <;> rename_i hp <;> rw [hp] at hallows <;> exact ⟨h, hallows⟩

end Step

end Allowance
