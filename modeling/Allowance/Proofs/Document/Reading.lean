import Allowance.Proofs.Document.Wire

/-! # What reading accepts

A document that reading accepts keeps all rules for documents, so it passes every check again when
its wire form is read.
-/

namespace Allowance

open Checked

@[simp] theorem DocumentError.throw_ne_ok {α : Type} {e : DocumentError} {a : α} :
    e.throw ≠ .ok a := nofun

variable {v : Json}

namespace Resource

variable {s : String} {resource : Resource}

theorem text_of_ofText? (h : ofText? s = .ok (some resource)) : resource.text = s := by
  unfold ofText? at h
  split at h
  · rename_i hs
    obtain rfl : value = resource := by simpa using h
    exact hs.symm
  split at h
  · rename_i hs
    obtain rfl : recipient = resource := by simpa using h
    exact hs.symm
  split at h
  · rename_i hs
    obtain rfl : sender = resource := by simpa using h
    exact hs.symm
  · obtain ⟨index, _, h⟩ := bind_eq_ok.mp h
    obtain ⟨n, _, rfl⟩ := Option.map_eq_some_iff.mp (pure_eq_ok.mp h)
    rfl

theorem wellFormed_of_ofText? (h : ofText? s = .ok (some resource)) : resource.WellFormed := by
  rwa [WellFormed, text_of_ofText? h]

end Resource

namespace Test

variable {c : Comparator} {reference : Json} {t : Test}

theorem finite_of_numberOf {n : Number} (h : numberOf c reference = .ok n) :
    n.isFinite? = some true := by
  obtain ⟨found, hfound, h⟩ := bind_eq_ok.mp h
  cases found with
  | none => cases h
  | some m =>
    obtain rfl := pure_eq_ok.mp h
    exact (Json.number_of_finite? hfound).2

theorem wellFormed_of_of (h : Test.of c reference = .ok t) : t.WellFormed := by
  cases c with
  | includedIn =>
    obtain ⟨_, _, rfl⟩ := map_eq_ok.mp h
    trivial
  | notIncludedIn =>
    obtain ⟨_, _, rfl⟩ := map_eq_ok.mp h
    trivial
  | greaterThan =>
    obtain ⟨_, hn, rfl⟩ := map_eq_ok.mp h
    exact finite_of_numberOf hn
  | lessThan =>
    obtain ⟨_, hn, rfl⟩ := map_eq_ok.mp h
    exact finite_of_numberOf hn
  | equals =>
    simp only [Test.of] at h
    split at h
    · obtain rfl := Except.ok.inj h
      trivial
    · obtain ⟨found, hfound, h⟩ := bind_eq_ok.mp h
      cases found with
      | none => cases h
      | some n =>
        obtain rfl := pure_eq_ok.mp h
        exact (Json.number_of_finite? hfound).2

end Test

theorem Condition.wellFormed_of_ofJson {c : Condition} (h : ofJson v = .ok c) : c.WellFormed := by
  simp only [ofJson, bind_eq_ok] at h
  obtain ⟨_, -, _, -, _, -, resource, -, _, -, _, -, _, -, h⟩ := h
  split at h
  · simp only [bind_eq_ok] at h
    obtain ⟨found, hfound, h⟩ := h
    cases found with
    | none => exact absurd h DocumentError.throw_ne_ok
    | some named =>
      obtain ⟨test, htest, h⟩ := bind_eq_ok.mp h
      obtain rfl := pure_eq_ok.mp h
      exact ⟨Resource.wellFormed_of_ofText? hfound, Test.wellFormed_of_of htest⟩
  · exact absurd h DocumentError.throw_ne_ok

namespace Permission

variable {p : Permission} {ps seen : List Permission}

theorem wellFormed_of_ofJson (h : ofJson v = .ok p) : p.WellFormed := by
  simp only [ofJson, bind_eq_ok] at h
  obtain ⟨_, -, _, -, _, -, chain, -, _, -, _, -, _, -, _, -, conditions, hconditions, h⟩ := h
  split at h
  · split at h
    · exact absurd h DocumentError.throw_ne_ok
    · rename_i hs
      obtain rfl := pure_eq_ok.mp h
      refine ⟨by simpa using hs, fun c hc => ?_⟩
      obtain ⟨_, _, hread⟩ := (mem_of_mapM hconditions).mp hc
      exact Condition.wellFormed_of_ofJson hread
  · exact absurd h DocumentError.throw_ne_ok

theorem pairwise_of_repeated? (h : repeated? seen ps = none) :
    (∀ p ∈ ps, ∀ q ∈ seen, p.overlaps q = false) ∧ ps.Pairwise fun p q => q.overlaps p = false := by
  induction ps generalizing seen with
  | nil => exact ⟨by simp, .nil⟩
  | cons p ps ih =>
    rw [repeated?] at h
    split at h
    · cases h
    · rename_i hnew
      obtain ⟨hseen, hps⟩ := ih h
      refine ⟨fun q hq r hr => ?_, .cons (fun q hq => hseen q hq p List.mem_cons_self) hps⟩
      rcases List.mem_cons.mp hq with rfl | hq
      · simpa using fun ho => hnew (List.any_eq_true.mpr ⟨r, hr, ho⟩)
      · exact hseen q hq r (List.mem_cons_of_mem _ hr)

end Permission

theorem Scope.wellFormed_of_ofJson {s : Scope} (h : ofJson v = .ok s) : s.WellFormed := by
  simp only [ofJson, bind_eq_ok] at h
  obtain ⟨_, -, required, -, _, -, h⟩ := h
  split at h
  · simp only [bind_eq_ok] at h
    obtain ⟨_, -, _, -, _, -, permissions, hpermissions, h⟩ := h
    split at h
    · exact absurd h DocumentError.throw_ne_ok
    · rename_i hrepeated
      obtain rfl := pure_eq_ok.mp h
      refine ⟨fun p hp => ?_, (Permission.pairwise_of_repeated? hrepeated).2⟩
      obtain ⟨_, _, hread⟩ := (mem_of_mapM hpermissions).mp hp
      exact Permission.wellFormed_of_ofJson hread
  · exact absurd h DocumentError.throw_ne_ok

namespace Document

variable {d : Document}

theorem unshared_of_checkNames {names : List Json} {u : Unit} (h : checkNames names = .ok u) :
    ∀ name ∈ names, names.countP name.same ≤ 1 := by
  simp only [checkNames] at h
  split at h
  · rename_i hempty
    simpa [List.isEmpty_iff, List.filter_eq_nil_iff] using hempty
  · obtain ⟨_, _, h⟩ := bind_eq_ok.mp h
    obtain ⟨_, _, h⟩ := bind_eq_ok.mp h
    split at h
    · exact absurd h DocumentError.throw_ne_ok
    · exact absurd h misuse_ne_ok

theorem finite_of_timestamp {label : String} {t : Option Number} (h : timestamp label v = .ok t) :
    ∀ n, t = some n → n.isFinite? = some true := by
  unfold timestamp at h
  split at h
  · simp [← pure_eq_ok.mp h]
  · obtain ⟨found, hfound, h⟩ := bind_eq_ok.mp h
    cases found with
    | none => exact absurd h DocumentError.throw_ne_ok
    | some m =>
      obtain rfl := pure_eq_ok.mp h
      rintro n ⟨⟩
      exact (Json.number_of_finite? hfound).2

theorem wellFormed_of_ofJson (h : ofJson v = .ok d) : d.WellFormed := by
  unfold ofJson at h
  split at h
  · split at h
    · exact absurd h DocumentError.throw_ne_ok
    · simp only [bind_eq_ok] at h
      obtain ⟨_, -, _, -, _, -, _, -, scopes, hscopes, _, hnames, _, hfrom, _, hto, h⟩ := h
      split at h
      · exact absurd h DocumentError.throw_ne_ok
      · rename_i hwindow
        obtain rfl := pure_eq_ok.mp h
        refine ⟨fun s hs => ?_, fun s hs => ?_, finite_of_timestamp hfrom,
          finite_of_timestamp hto, by simpa using hwindow⟩
        · obtain ⟨_, _, hread⟩ := (mem_of_mapM hscopes).mp hs
          exact Scope.wellFormed_of_ofJson hread
        · exact unshared_of_checkNames hnames s.name (List.mem_map_of_mem hs)
  · exact absurd h DocumentError.throw_ne_ok

end Document

end Allowance
