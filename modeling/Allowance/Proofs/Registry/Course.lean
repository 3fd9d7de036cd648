import Allowance.Proofs.Registry.Outcome

/-! # Courses of operations

A course leads from one world to another by operations of a certain kind, whether they succeed or
fail, and by whatever leaves files and published documents alone. What each operation of that kind
keeps of a stored policy is kept along the whole course.
-/

namespace Allowance

namespace Registry

variable {r : Registry} {w w' : World} {id : String} {p : PolicyRecord} {ops : List Operation}
  {allowed : World → Operation → Prop}

/-- The operations lead from one world to the other, and each is allowed where it starts. -/
inductive Course (r : Registry) (allowed : World → Operation → Prop) (w : World) :
    List Operation → World → Prop
  | refl : Course r allowed w [] w
  | operation {ops : List Operation} {w' : World} (o : Operation) :
      Course r allowed w ops w' → r.FreshFor w' o → allowed w' o →
      Course r allowed w (ops ++ [o]) (r.after w' o)
  | elsewhere {ops : List Operation} {w' w'' : World} :
      Course r allowed w ops w' → w''.disk = w'.disk → w''.shelf = w'.shelf →
      Course r allowed w ops w''

theorem Course.reachable (hc : r.Course allowed w ops w') (h : r.Reachable w) :
    r.Reachable w' := by
  induction hc with
  | refl => exact h
  | operation o _ hfresh _ ih => exact .operation o ih hfresh
  | elsewhere _ hdisk hshelf ih => exact .elsewhere ih hdisk hshelf

/-- A policy stays stored along a course, and what each operation keeps of it is kept. -/
theorem Course.follows {R : List Operation → PolicyRecord → Prop}
    (hc : r.Course allowed w ops w') (h : r.Reachable w) (hp : r.Stores w id p) (hstart : R [] p)
    (hstep : ∀ u ops o q, r.Reachable u → r.FreshFor u o → allowed u o → r.Stores u id q →
      R ops q → ∃ q', r.Stores (r.after u o) id q' ∧ R (ops ++ [o]) q') :
    ∃ q, r.Stores w' id q ∧ R ops q := by
  induction hc with
  | refl => exact ⟨p, hp, hstart⟩
  | operation o hc hfresh hallowed ih =>
    obtain ⟨q, hq, hR⟩ := ih
    exact hstep _ _ o q (hc.reachable h) hfresh hallowed hq hR
  | elsewhere hc hdisk hshelf ih =>
    obtain ⟨q, hq, hR⟩ := ih
    exact ⟨q, ((hc.reachable h).stores_congr hdisk hshelf).mpr hq, hR⟩

end Registry

end Allowance
