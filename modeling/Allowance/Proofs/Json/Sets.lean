import Allowance.Proofs.Json.Access
import Mathlib.Data.List.Perm.Basic

/-! # Sets of values

A list stands for a set when its members are scalars and no two of them are the same. Sets are
written in increasing order, so a set that is read back may have its members in another order, but
it has the same ones.
-/

namespace Allowance

theorem Number.same_comm (a b : Number) : a.same b = b.same a := by
  simp only [same]
  cases a.position? <;> cases b.position? <;> simp [Bool.beq_comm]

namespace Json

variable {us vs ms : List Json} {u v : Json}

theorem same_comm {u v : Json} (hu : u.isScalar = true) (hv : v.isScalar = true) :
    u.same v = v.same u := by
  cases u <;> cases v <;> simp_all [isScalar, same, Number.same_comm, Bool.beq_comm]

structure IsSet (vs : List Json) : Prop where
  scalars : ∀ v ∈ vs, v.isScalar = true
  different : vs.Pairwise fun u v => v.same u = false

theorem IsSet.of_perm (h : IsSet us) (hp : us.Perm vs) : IsSet vs := by
  refine ⟨fun v hv => h.scalars v (hp.mem_iff.mpr hv), ?_⟩
  have hboth : us.Pairwise fun u v => u.isScalar = true ∧ v.isScalar = true ∧ v.same u = false :=
    h.different.imp_of_mem fun hu hv hne => ⟨h.scalars _ hu, h.scalars _ hv, hne⟩
  refine (hboth.perm hp fun hu => ?_).imp fun huv => huv.2.2
  obtain ⟨hu, hv, hne⟩ := hu
  exact ⟨hv, hu, same_comm hu hv ▸ hne⟩

theorem foldl_distinct_of_different
    (h : (us ++ vs).Pairwise fun u v => v.same u = false) :
    vs.foldl (fun kept v => if kept.any v.same then kept else kept ++ [v]) us = us ++ vs := by
  induction vs generalizing us with
  | nil => simp
  | cons v vs ih =>
    have hnew : us.any v.same = false := by
      simpa using fun u hu => (List.pairwise_append.mp h).2.2 u hu v List.mem_cons_self
    rw [List.append_cons] at h
    simp only [List.foldl_cons, hnew, Bool.false_eq_true, if_false, ih h, List.append_assoc,
      List.singleton_append]

theorem distinct_eq_self (h : vs.Pairwise fun u v => v.same u = false) : distinct vs = vs :=
  foldl_distinct_of_different h

theorem foldl_distinct_different (h : us.Pairwise fun u v => v.same u = false) :
    (vs.foldl (fun kept v => if kept.any v.same then kept else kept ++ [v]) us).Pairwise
      fun u v => v.same u = false := by
  induction vs generalizing us with
  | nil => exact h
  | cons v vs ih =>
    rw [List.foldl_cons]
    split
    · exact ih h
    · rename_i hnew
      refine ih (List.pairwise_append.mpr ⟨h, List.pairwise_singleton _ _, fun u hu w hw => ?_⟩)
      obtain rfl := List.mem_singleton.mp hw
      simpa using fun hs => hnew (List.any_eq_true.mpr ⟨u, hu, hs⟩)

theorem foldl_distinct_subset (h : v ∈ vs.foldl
    (fun kept v => if kept.any v.same then kept else kept ++ [v]) us) : v ∈ us ∨ v ∈ vs := by
  induction vs generalizing us with
  | nil => exact Or.inl h
  | cons w vs ih =>
    rw [List.foldl_cons] at h
    rcases ih h with hv | hv
    · split at hv
      · exact Or.inl hv
      · rcases List.mem_append.mp hv with hv | hv
        · exact Or.inl hv
        · exact Or.inr (List.mem_cons.mpr (Or.inl (List.mem_singleton.mp hv)))
    · exact Or.inr (List.mem_cons_of_mem _ hv)

theorem mem_of_mem_distinct (h : v ∈ distinct vs) : v ∈ vs := by
  simpa using foldl_distinct_subset h

theorem isSet_distinct (h : ∀ v ∈ vs, v.isScalar = true) : IsSet (distinct vs) :=
  ⟨fun v hv => h v (mem_of_mem_distinct hv), foldl_distinct_different .nil⟩

theorem isSet_of_members (h : members vs = .ok ms) : IsSet ms := by
  unfold members at h
  split at h
  · rename_i hs
    obtain rfl : distinct vs = ms := by simpa using h
    exact isSet_distinct (List.all_eq_true.mp hs)
  · exact absurd h nofun

theorem IsSet.members_eq (h : IsSet vs) : members vs = .ok vs := by
  rw [members, if_pos (List.all_eq_true.mpr h.scalars), distinct_eq_self h.different]

theorem same_self (h : v.isScalar = true) : v.same v = true := by
  cases v <;> simp_all [isScalar, same]

theorem IsSet.nodup (h : IsSet vs) : vs.Nodup := by
  refine h.different.imp_of_mem fun hu _ hne => ?_
  rintro rfl
  simp [same_self (h.scalars _ hu)] at hne

theorem foldl_distinct_keeps (h : u ∈ us) :
    u ∈ vs.foldl (fun kept v => if kept.any v.same then kept else kept ++ [v]) us := by
  induction vs generalizing us with
  | nil => exact h
  | cons v vs ih =>
    rw [List.foldl_cons]
    split
    · exact ih h
    · exact ih (List.mem_append_left _ h)

theorem exists_same_of_mem (hu : u ∈ vs) (hs : u.isScalar = true) :
    ∃ v ∈ distinct vs, u.same v = true := by
  suffices h : ∀ us, ∃ v ∈ vs.foldl
      (fun kept v => if kept.any v.same then kept else kept ++ [v]) us, u.same v = true from h []
  induction vs with
  | nil => cases hu
  | cons w vs ih =>
    intro us
    rw [List.foldl_cons]
    rcases List.mem_cons.mp hu with rfl | hu
    · split
      · rename_i hany
        obtain ⟨v, hv, hsame⟩ := List.any_eq_true.mp hany
        exact ⟨v, foldl_distinct_keeps hv, hsame⟩
      · exact ⟨u, foldl_distinct_keeps (by simp), same_self hs⟩
    · exact ih hu _

theorem mem_distinct (hs : ∀ v ∈ vs, v.isScalar = true)
    (htexts : ∀ v ∈ distinct vs, ∃ s, v = .string s) : u ∈ distinct vs ↔ u ∈ vs := by
  refine ⟨mem_of_mem_distinct, fun hu => ?_⟩
  obtain ⟨v, hv, hsame⟩ := exists_same_of_mem hu (hs u hu)
  obtain ⟨s, rfl⟩ := htexts v hv
  rwa [same_string.mp hsame]

theorem allOrdered_iff {α : Type} {less? : α → α → Option Bool} {xs : List α} :
    allOrdered less? xs = true ↔
      xs.Pairwise fun x y => (less? x y).isSome = true ∧ (less? y x).isSome = true := by
  induction xs with
  | nil => simp [allOrdered]
  | cons x xs ih => simp [allOrdered, ih]

theorem sorted_eq_ok : sorted vs = .ok ms ↔
    allOrdered below? vs = true ∧ vs.mergeSort (fun x y => !((below? y x).getD false)) = ms := by
  by_cases h : allOrdered below? vs = true <;> simp [sorted, sorted?, sortedBy?, h]

theorem sorted_eq_error {e : Fault} (h : sorted vs = .error e) : e = .misuse .wrongKind := by
  unfold sorted at h
  split at h
  · cases h
  · exact (Except.error.inj h).symm

theorem perm_of_sorted (h : sorted vs = .ok ms) : ms.Perm vs := by
  obtain ⟨_, rfl⟩ := sorted_eq_ok.mp h
  exact List.mergeSort_perm ..

/-- Whether values can be sorted does not depend on their order. -/
theorem sorted_of_perm (hp : us.Perm vs) (h : sorted us = .ok ms) : ∃ ns, sorted vs = .ok ns := by
  have hus := allOrdered_iff.mp (sorted_eq_ok.mp h).1
  exact ⟨_, sorted_eq_ok.mpr ⟨allOrdered_iff.mpr (hus.perm hp fun hxy => hxy.symm), rfl⟩⟩

theorem sorted_of_texts (h : ∀ v ∈ vs, ∃ s, v = .string s) :
    ∃ ms, sorted vs = .ok ms := by
  refine ⟨_, sorted_eq_ok.mpr ⟨allOrdered_iff.mpr ?_, rfl⟩⟩
  refine List.pairwise_of_forall_mem_list fun u hu v hv => ?_
  obtain ⟨s, rfl⟩ := h u hu
  obtain ⟨t, rfl⟩ := h v hv
  exact ⟨rfl, rfl⟩

end Json

end Allowance
