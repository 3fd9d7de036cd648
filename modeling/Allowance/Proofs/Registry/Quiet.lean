import Allowance.Proofs.World.Frame
import Allowance.Proofs.World.State
import Allowance.Registry.Basic

/-! # What the registry leaves alone

Looking something up leaves the world as it is, so it stays within every frame. Operations write,
but they ask nobody outside, and an advisory check does not even write.
-/

namespace Allowance

open Step

variable {F : Frame} {path name key : String} {child id v : Json} {p : PolicyRecord}

namespace Step.Within

theorem log_unasked {level : Level} {logger message : String} :
    (Step.log level logger message).Within .unasked := fun _ => ⟨rfl, rfl, rfl, Nat.le_refl _⟩

theorem log_kept {level : Level} {logger message : String} :
    (Step.log level logger message).Within .kept := fun _ => ⟨rfl, rfl⟩

theorem now_unasked : Step.now.Within .unasked := fun _ => ⟨rfl, rfl, rfl, Nat.le_succ _⟩

theorem now_kept : Step.now.Within .kept := fun _ => ⟨rfl, rfl⟩

theorem freshId_unasked : Step.freshId.Within .unasked := fun _ => ⟨rfl, rfl, rfl, Nat.le_refl _⟩

end Step.Within

namespace State

theorem load_within : (load path).Within F := .of_reads fun _ => by rw [perform_load]

theorem get_within : (State.get path name key).Within F := .of_reads fun _ => by rw [perform_get]

theorem save_unasked : (save path v).Within .unasked := fun _ => ⟨rfl, rfl, rfl, Nat.le_refl _⟩

theorem put_unasked : (State.put path name key v).Within .unasked := by
  refine .bind load_within fun state => ?_
  split
  · exact save_unasked
  · exact .throw _

theorem delete_unasked : (State.delete path name key).Within .unasked := by
  refine .bind load_within fun state => .bind (.lift _) fun found => ?_
  split
  · split
    · exact .bind save_unasked fun _ => .pure _
    · exact .throw _
  · exact .pure _

end State

namespace Shelf

variable {shelf : Shelf}

theorem put_unasked {pub : Publication} : (shelf.put child pub).Within .unasked := by
  refine .bind (.lift _) fun key => ?_
  cases shelf with
  | memory => exact .bind (fun _ => ⟨rfl, rfl, rfl, Nat.le_refl _⟩) fun _ => .log_unasked
  | file path => exact .bind State.put_unasked fun _ => .log_unasked

theorem remove_unasked : (shelf.remove child).Within .unasked := by
  refine .bind (.lift _) fun key => ?_
  cases shelf with
  | memory => exact fun _ => ⟨rfl, rfl, rfl, Nat.le_refl _⟩
  | file path => exact .map State.delete_unasked _

end Shelf

namespace Registry

variable {r : Registry}

theorem get_within : (r.get id).Within F := by
  refine .bind ?_ fun v => ?_
  · unfold stored
    split
    · exact State.get_within
    · refine .bind State.get_within fun _ => ?_
      split
      · exact .pure _
      · exact .throw _
  · split
    · exact .throw _
    · exact .lift _

theorem link?_within : (r.link? child).Within F := by
  refine .bind (.lift _) fun key => .bind State.get_within fun v => ?_
  split
  · exact .pure _
  · exact .map (.lift _) _

theorem found?_within {α : Type} {step : Step α} (h : step.Within F) : (found? step).Within F := by
  refine .tryCatch (.map h _) fun e => ?_
  split
  · exact .pure _
  · exact .throw _

theorem save_unasked : (r.save p).Within .unasked :=
  .bind (.lift _) fun _ => .bind (.lift _) fun _ => State.put_unasked

theorem publish_unasked : (r.publish p).Within .unasked := by
  unfold publish
  split
  · exact .pure _
  · split
    · split
      · exact Shelf.put_unasked
      · exact Shelf.remove_unasked
    · exact Shelf.remove_unasked

theorem unlink_unasked : (r.unlink child).Within .unasked :=
  .bind (.lift _) fun _ => .bind State.delete_unasked fun _ => Shelf.remove_unasked

theorem release_unasked : (r.release id child).Within .unasked := by
  refine .bind link?_within fun found => ?_
  split
  · exact .pure _
  · split
    · exact .pure _
    · refine .bind (found?_within get_within) fun found => ?_
      split
      · exact .pure _
      · exact .bind .now_unasked fun _ => save_unasked

theorem create_unasked {parent : Json} {draft : Draft} :
    (r.create parent draft).Within .unasked :=
  .refuse (.bind .now_unasked fun _ => .bind (.lift _) fun _ => .bind .freshId_unasked fun _ =>
    .bind (.lift _) fun _ => .bind save_unasked fun _ => .bind .log_unasked fun _ => .pure _)

theorem delete_unasked : (r.delete id).Within .unasked := by
  refine .bind get_within fun p => ?_
  split
  · exact .bind (.lift _) fun _ => .bind State.delete_unasked fun _ => .log_unasked
  · exact .bind unlink_unasked fun _ => .bind (.lift _) fun _ => .bind State.delete_unasked fun _ =>
      .log_unasked

/-- The second half of linking: gives a child to a policy that has no other one. -/
def attach (r : Registry) (id child : Json) (key : String) (p : PolicyRecord) :
    Step PolicyRecord := do
  r.release id (.string key)
  let now ← Step.now
  let linked := { p with child, updatedAt := .number now }
  r.save linked
  State.put r.path State.links key
    (LinkRecord.toJson { child := .string key, policy := id, parent := p.parent })
  r.publish linked
  Step.log .info logger
    ("linked child " ++ Address.short child.plain ++ " to policy " ++ id.plain)
  return linked

theorem attach_unasked {key : String} : (r.attach id child key p).Within .unasked :=
  .bind release_unasked fun _ => .bind .now_unasked fun _ => .bind save_unasked fun _ =>
    .bind State.put_unasked fun _ => .bind publish_unasked fun _ => .bind .log_unasked fun _ =>
      .pure _

theorem link_unasked : (r.link id child).Within .unasked := by
  refine .refuse (.bind (.lift _) fun key => .bind get_within fun p => ?_)
  split
  · exact attach_unasked
  · refine .bind (.ofChecked _) fun other => ?_
    split
    · exact .bind unlink_unasked fun _ => attach_unasked
    · exact attach_unasked

theorem childPolicy?_kept : (r.childPolicy? child).Within .kept := by
  refine .bind link?_within fun found => ?_
  split
  · exact .pure _
  · refine .bind (found?_within get_within) fun found => ?_
    split
    · exact .pure _
    · exact .bind .log_kept fun _ => .pure _

theorem preflight_kept {tx : Request} : (r.preflight child tx v).Within .kept := by
  refine .bind childPolicy?_kept fun found => ?_
  split
  · exact .pure _
  · split
    · exact .pure _
    · split
      · exact .pure _
      · split
        · exact .bind .now_kept fun _ => .pure _
        · exact .lift _

end Registry

end Allowance
