import Allowance.Fault.Basic

/-! # Chains of checks

A chain of checks succeeds exactly when every check in it does. The lemmas read a success backwards,
one check at a time, and say what a list of checks gives and where a chain fails.
-/

namespace Allowance.Checked

variable {α β : Type} {x : Checked α} {f : α → Checked β} {b : β}

theorem bind_eq_ok : (x >>= f) = .ok b ↔ ∃ a, x = .ok a ∧ f a = .ok b := by
  cases x <;> simp [bind, Except.bind]

theorem map_eq_ok {g : α → β} : x.map g = .ok b ↔ ∃ a, x = .ok a ∧ g a = b := by
  cases x <;> simp [Except.map]

theorem pure_eq_ok {a c : α} : (pure a : Checked α) = .ok c ↔ a = c := by
  simp [pure, Except.pure]

@[simp] theorem ok_bind (a : α) : (Except.ok a : Checked α) >>= f = f a := rfl

@[simp] theorem error_bind (e : Fault) : (Except.error e : Checked α) >>= f = .error e := rfl

@[simp] theorem ok_map (g : α → β) (a : α) : (Except.ok a : Checked α).map g = .ok (g a) := rfl

@[simp] theorem misuse_ne_ok {m : Misuse} {a : α} : misuse m ≠ .ok a := nofun

theorem mapM_nil_eq_ok {ys : List β} : ([] : List α).mapM f = .ok ys ↔ ys = [] := by
  rw [List.mapM_nil, pure_eq_ok, eq_comm]

theorem mapM_cons_eq_ok {a : α} {xs : List α} {ys : List β} :
    (a :: xs).mapM f = .ok ys ↔ ∃ b bs, f a = .ok b ∧ xs.mapM f = .ok bs ∧ ys = b :: bs := by
  simp only [List.mapM_cons, bind_eq_ok, pure_eq_ok]
  constructor
  · rintro ⟨b, hb, bs, hbs, rfl⟩
    exact ⟨b, bs, hb, hbs, rfl⟩
  · rintro ⟨b, bs, hb, hbs, rfl⟩
    exact ⟨b, hb, bs, hbs, rfl⟩

theorem mem_of_mapM {xs : List α} {ys : List β} (h : xs.mapM f = .ok ys) :
    b ∈ ys ↔ ∃ a ∈ xs, f a = .ok b := by
  induction xs generalizing ys with
  | nil => simp [mapM_nil_eq_ok.mp h]
  | cons a xs ih =>
    obtain ⟨c, cs, hc, hcs, rfl⟩ := mapM_cons_eq_ok.mp h
    simp [ih hcs, hc, eq_comm]

theorem exists_of_mapM {xs : List α} {ys : List β} (h : xs.mapM f = .ok ys) {a : α}
    (ha : a ∈ xs) : ∃ b ∈ ys, f a = .ok b := by
  induction xs generalizing ys with
  | nil => simp at ha
  | cons c xs ih =>
    obtain ⟨d, ds, hd, hds, rfl⟩ := mapM_cons_eq_ok.mp h
    rcases List.mem_cons.mp ha with rfl | ha
    · exact ⟨d, List.mem_cons_self, hd⟩
    · obtain ⟨b, hb, hab⟩ := ih hds ha
      exact ⟨b, List.mem_cons_of_mem _ hb, hab⟩

theorem mapM_of_forall {xs : List α} (h : ∀ a ∈ xs, ∃ b, f a = .ok b) :
    ∃ ys, xs.mapM f = .ok ys := by
  induction xs with
  | nil => exact ⟨[], rfl⟩
  | cons a xs ih =>
    obtain ⟨b, hb⟩ := h a List.mem_cons_self
    obtain ⟨bs, hbs⟩ := ih fun c hc => h c (List.mem_cons_of_mem _ hc)
    exact ⟨b :: bs, mapM_cons_eq_ok.mpr ⟨b, bs, hb, hbs, rfl⟩⟩

theorem mapM_map {γ : Type} {xs : List γ} {g : γ → α} {h : γ → β}
    (hf : ∀ c ∈ xs, f (g c) = .ok (h c)) : (xs.map g).mapM f = .ok (xs.map h) := by
  induction xs with
  | nil => rfl
  | cons c xs ih =>
    have hxs := ih fun d hd => hf d (List.mem_cons_of_mem _ hd)
    exact mapM_cons_eq_ok.mpr ⟨_, _, hf c List.mem_cons_self, hxs, rfl⟩

theorem mapM_map_self {f : β → Checked α} {g : α → β} {xs : List α}
    (hf : ∀ a ∈ xs, f (g a) = .ok a) : (xs.map g).mapM f = .ok xs := by
  rw [mapM_map hf, List.map_id']

theorem length_of_mapM {xs : List α} {ys : List β} (h : xs.mapM f = .ok ys) :
    ys.length = xs.length := by
  induction xs generalizing ys with
  | nil => simp [mapM_nil_eq_ok.mp h]
  | cons a xs ih =>
    obtain ⟨b, bs, _, hbs, rfl⟩ := mapM_cons_eq_ok.mp h
    simp [ih hbs]

theorem pairwise_of_mapM {xs : List α} {ys : List β} {R : α → α → Prop}
    {S : β → β → Prop} (h : xs.mapM f = .ok ys)
    (hrel : ∀ a b c d, f a = .ok b → f c = .ok d → (R a c ↔ S b d)) :
    xs.Pairwise R ↔ ys.Pairwise S := by
  induction xs generalizing ys with
  | nil => simp [mapM_nil_eq_ok.mp h]
  | cons a xs ih =>
    obtain ⟨b, bs, hb, hbs, rfl⟩ := mapM_cons_eq_ok.mp h
    rw [List.pairwise_cons, List.pairwise_cons, ih hbs]
    refine and_congr_left fun _ => ⟨fun hall d hd => ?_, fun hall c hc => ?_⟩
    · obtain ⟨c, hc, hcd⟩ := (mem_of_mapM hbs).mp hd
      exact (hrel a b c d hb hcd).mp (hall c hc)
    · obtain ⟨d, hd, hcd⟩ := exists_of_mapM hbs hc
      exact (hrel a b c d hb hcd).mpr (hall d hd)

theorem map_of_mapM {γ : Type} {xs : List α} {ys : List β} {g : β → γ} {k : α → γ}
    (h : xs.mapM f = .ok ys)
    (hmap : ∀ a ∈ xs, ∀ b, f a = .ok b → g b = k a) : ys.map g = xs.map k := by
  induction xs generalizing ys with
  | nil => simp [mapM_nil_eq_ok.mp h]
  | cons a xs ih =>
    obtain ⟨b, bs, hb, hbs, rfl⟩ := mapM_cons_eq_ok.mp h
    obtain ⟨ha, hxs⟩ := List.forall_mem_cons.mp hmap
    rw [List.map_cons, List.map_cons, ha b hb, ih hbs hxs]

theorem mapM_of_perm {xs ys : List α} {bs : List β} (hp : xs.Perm ys) (h : xs.mapM f = .ok bs) :
    ∃ cs, ys.mapM f = .ok cs ∧ cs.Perm bs := by
  induction hp generalizing bs with
  | nil => exact ⟨bs, h, .refl _⟩
  | cons a _ ih =>
    obtain ⟨b, bs, hb, hbs, rfl⟩ := mapM_cons_eq_ok.mp h
    obtain ⟨cs, hcs, hperm⟩ := ih hbs
    exact ⟨b :: cs, mapM_cons_eq_ok.mpr ⟨b, cs, hb, hcs, rfl⟩, hperm.cons b⟩
  | swap a₁ a₂ xs =>
    obtain ⟨b₂, rest, hb₂, hrest, rfl⟩ := mapM_cons_eq_ok.mp h
    obtain ⟨b₁, bs, hb₁, hbs, rfl⟩ := mapM_cons_eq_ok.mp hrest
    refine ⟨b₁ :: b₂ :: bs, mapM_cons_eq_ok.mpr ⟨b₁, _, hb₁, ?_, rfl⟩, .swap ..⟩
    exact mapM_cons_eq_ok.mpr ⟨b₂, bs, hb₂, hbs, rfl⟩
  | trans _ _ ih₁ ih₂ =>
    obtain ⟨cs, hcs, hperm⟩ := ih₁ h
    obtain ⟨ds, hds, hperm'⟩ := ih₂ hcs
    exact ⟨ds, hds, hperm'.trans hperm⟩

section Fails

variable {kind : Fault → Prop}

def Fails (kind : Fault → Prop) (x : Checked α) : Prop := ∃ e, x = .error e ∧ kind e

@[simp] theorem not_fails_ok {a : α} : ¬ Fails kind (.ok a) := nofun

@[simp] theorem not_fails_pure {a : α} : ¬ Fails kind (pure a) := nofun

@[simp] theorem fails_error {e : Fault} : Fails kind (.error e : Checked α) ↔ kind e := by
  simp [Fails]

@[simp] theorem fails_misuse {m : Misuse} : Fails kind (misuse m : Checked α) ↔ kind (.misuse m) :=
  fails_error

theorem fails_bind : Fails kind (x >>= f) ↔ Fails kind x ∨ ∃ a, x = .ok a ∧ Fails kind (f a) := by
  cases x <;> simp

@[simp] theorem fails_map {g : α → β} : Fails kind (x.map g) ↔ Fails kind x := by
  cases x <;> simp [Except.map]

/-- A list fails a check where its first element that does not pass fails. -/
theorem fails_mapM_iff {xs : List α} : Fails kind (xs.mapM f) ↔
    ∃ earlier a later, xs = earlier ++ a :: later ∧ (∀ c ∈ earlier, ∃ b, f c = .ok b) ∧
      Fails kind (f a) := by
  induction xs with
  | nil => simp
  | cons c xs ih =>
    simp only [List.mapM_cons, fails_bind, not_fails_pure, and_false, exists_false, or_false, ih]
    constructor
    · rintro (hc | ⟨b, hb, earlier, a, later, rfl, hearlier, ha⟩)
      · exact ⟨[], c, xs, rfl, by simp, hc⟩
      · exact ⟨c :: earlier, a, later, rfl, by simpa [hb] using hearlier, ha⟩
    · rintro ⟨earlier, a, later, hxs, hearlier, ha⟩
      cases earlier with
      | nil =>
        obtain ⟨rfl, rfl⟩ := List.cons.inj hxs
        exact Or.inl ha
      | cons d earlier =>
        obtain ⟨rfl, rfl⟩ := List.cons.inj hxs
        obtain ⟨⟨b, hb⟩, hrest⟩ := List.forall_mem_cons.mp hearlier
        exact Or.inr ⟨b, hb, earlier, a, later, rfl, hrest, ha⟩

/-- The check gives a value where a condition holds, and fails with a fault of a kind elsewhere. -/
structure Decides (kind : Fault → Prop) (x : Checked α) (P : Prop) : Prop where
  gives : P → ∃ a, x = .ok a
  fails : ¬ P → Fails kind x

namespace Decides

variable {P Q : Prop}

theorem ok (a : α) : Decides kind (.ok a) True := ⟨fun _ => ⟨a, rfl⟩, fun h => absurd trivial h⟩

theorem error {e : Fault} (h : kind e) : Decides kind (.error e : Checked α) False :=
  ⟨False.elim, fun _ => ⟨e, rfl, h⟩⟩

theorem congr (h : Decides kind x P) (hiff : P ↔ Q) : Decides kind x Q :=
  ⟨fun hQ => h.gives (hiff.mpr hQ), fun hQ => h.fails (mt hiff.mp hQ)⟩

theorem holds (h : Decides kind x P) {a : α} (hx : x = .ok a) : P :=
  Classical.byContradiction fun hP => not_fails_ok (hx ▸ h.fails hP)

theorem bind (h : Decides kind x P) (hf : ∀ a, x = .ok a → Decides kind (f a) Q) :
    Decides kind (x >>= f) (P ∧ Q) := by
  constructor
  · rintro ⟨hP, hQ⟩
    obtain ⟨a, ha⟩ := h.gives hP
    obtain ⟨b, hb⟩ := (hf a ha).gives hQ
    exact ⟨b, bind_eq_ok.mpr ⟨a, ha, hb⟩⟩
  · intro hno
    rw [fails_bind]
    by_cases hP : P
    · obtain ⟨a, ha⟩ := h.gives hP
      exact Or.inr ⟨a, ha, (hf a ha).fails fun hQ => hno ⟨hP, hQ⟩⟩
    · exact Or.inl (h.fails hP)

theorem map (h : Decides kind x P) (g : α → β) : Decides kind (x >>= fun a => pure (g a)) P :=
  (h.bind fun a _ => ok (g a)).congr (and_iff_left trivial)

theorem mapM {xs : List α} {P : α → Prop} (h : ∀ a ∈ xs, Decides kind (f a) (P a)) :
    Decides kind (xs.mapM f) (∀ a ∈ xs, P a) := by
  induction xs with
  | nil => exact (ok []).congr (by simp)
  | cons a xs ih =>
    obtain ⟨ha, hxs⟩ := List.forall_mem_cons.mp h
    rw [List.mapM_cons, List.forall_mem_cons]
    exact ha.bind fun b _ => (ih hxs).map _

end Decides

end Fails

def gives [DecidableEq α] (x : Checked α) (a : α) : Bool :=
  match x with
  | .ok b => decide (b = a)
  | .error _ => false

theorem gives_iff [DecidableEq α] {x : Checked α} {a : α} : x.gives a = true ↔ x = .ok a := by
  cases x <;> simp [gives]

def misuses (x : Checked α) (m : Misuse) : Bool :=
  match x with
  | .error (.misuse other) => decide (other = m)
  | _ => false

theorem misuses_iff {x : Checked α} {m : Misuse} : x.misuses m = true ↔ x = .error (.misuse m) := by
  unfold misuses
  split
  · simp
  · rename_i hno
    exact iff_of_false nofun fun h => hno m h

end Allowance.Checked
