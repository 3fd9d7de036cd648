import Allowance.Proofs.Json.Access

/-! # Documents survive their wire form

A document is well formed when it keeps the rules that reading checks: references of tests are
finite, chains are not empty, no scope holds two overlapping permissions, no two scopes share a
name, and the window does not end before it begins. A well-formed document that is written and read
again is the same document.
-/

namespace Allowance

open Checked

def Test.WellFormed : Test → Prop
  | .equalsNumber n => n.isFinite? = some true
  | .greaterThan n => n.isFinite? = some true
  | .lessThan n => n.isFinite? = some true
  | _ => True

/-- The spelling of an argument gives its number. -/
def Resource.WellFormed (resource : Resource) : Prop :=
  ofText? resource.text = .ok (some resource)

def Condition.WellFormed (c : Condition) : Prop := c.resource.WellFormed ∧ c.test.WellFormed

def Permission.WellFormed (p : Permission) : Prop := p.chain ≠ "" ∧ ∀ c ∈ p.conditions, c.WellFormed

def Scope.WellFormed (s : Scope) : Prop :=
  (∀ p ∈ s.permissions, p.WellFormed) ∧ s.permissions.Pairwise fun p q => q.overlaps p = false

structure Document.WellFormed (d : Document) : Prop where
  scopes : ∀ s ∈ d.scopes, s.WellFormed
  names : ∀ s ∈ d.scopes, (d.scopes.map (·.name)).countP s.name.same ≤ 1
  validFrom : ∀ n, d.validFrom = some n → n.isFinite? = some true
  validTo : ∀ n, d.validTo = some n → n.isFinite? = some true
  window : Document.inverted d.validFrom d.validTo = false

theorem Test.of_reference {t : Test} (h : t.WellFormed) :
    Test.of t.comparator t.reference = .ok t := by
  cases t <;> simp_all [Test.of, comparator, reference, listOf, numberOf, WellFormed, Json.ofTexts,
    Json.texts?_map_string, Json.finite?_of_finite, Except.map, pure, Except.pure]

theorem Comparator.ofWord?_word (c : Comparator) : ofWord? c.word = some c := by
  cases c <;> decide

theorem Effect.ofWord?_word (e : Effect) : ofWord? e.word = some e := by
  cases e <;> decide

theorem Action.ofWord?_word (a : Action) : ofWord? a.word = some a := by
  cases a <;> decide

theorem Condition.ofJson_toJson {c : Condition} (h : c.WellFormed) : ofJson c.toJson = .ok c := by
  have htype : (Json.string typeWord).wordOf "condition type" [typeWord]
      (fun s => if s = typeWord then some () else none) = .ok () := Json.wordOf_string _ _ (by simp)
  have hword := Json.wordOf_string "comparator" (Comparator.all.map (·.word))
    (Comparator.ofWord?_word c.test.comparator)
  have hresource : Resource.ofText? c.resource.text = .ok (some c.resource) := h.1
  simp only [typeWord] at htype
  simp [ofJson, toJson, Json.requireFields, Json.mentions, Json.fieldOr, Json.required, typeWord,
    List.lookup_cons, htype, hword, hresource, Test.of_reference h.2, pure, Except.pure]

theorem Permission.ofJson_toJson {p : Permission} (h : p.WellFormed) : ofJson p.toJson = .ok p := by
  have heffect := Json.wordOf_string "effect" (Effect.all.map (·.word))
    (Effect.ofWord?_word p.effect)
  have haction := Json.wordOf_string "permission type" (Action.all.map (·.word))
    (Action.ofWord?_word p.action)
  have hconditions := mapM_map_self fun c hc => Condition.ofJson_toJson (h.2 c hc)
  simp [ofJson, toJson, Json.requireFields, Json.mentions, Json.field, Json.required,
    List.lookup_cons, heffect, haction, hconditions, h.1, pure, Except.pure]

theorem Permission.repeated?_eq_none {seen ps : List Permission}
    (hseen : ∀ p ∈ ps, ∀ q ∈ seen, p.overlaps q = false)
    (h : ps.Pairwise fun p q => q.overlaps p = false) : repeated? seen ps = none := by
  induction ps generalizing seen with
  | nil => rfl
  | cons p ps ih =>
    obtain ⟨hp, hps⟩ := List.pairwise_cons.mp h
    have hany : seen.any p.overlaps = false := by
      simpa using hseen p List.mem_cons_self
    simp only [repeated?, hany]
    refine ih (fun q hq r hr => ?_) hps
    rcases List.mem_cons.mp hr with rfl | hr
    · exact hp q hq
    · exact hseen q (List.mem_cons_of_mem _ hq) r hr

theorem Scope.ofJson_toJson {s : Scope} (h : s.WellFormed) : ofJson s.toJson = .ok s := by
  have hpermissions := mapM_map_self fun p hp => Permission.ofJson_toJson (h.1 p hp)
  have hrepeated : Permission.repeated? [] s.permissions = none :=
    Permission.repeated?_eq_none (by simp) h.2
  simp [ofJson, toJson, Json.requireFields, Json.mentions, Json.field, Json.fieldOr, Json.required,
    List.lookup_cons, hpermissions, hrepeated, pure, Except.pure]

namespace Document

variable {d : Document}

theorem checkNames_of_unshared {names : List Json}
    (h : ∀ name ∈ names, names.countP name.same ≤ 1) : checkNames names = .ok () := by
  have hempty : names.filter (fun name => 1 < names.countP name.same) = [] := by
    simpa [List.filter_eq_nil_iff] using h
  simp [checkNames, hempty, pure, Except.pure]

theorem timestamp_of_finite (label : String) {n : Option Number}
    (h : ∀ m, n = some m → m.isFinite? = some true) :
    timestamp label (.ofNumber? n) = .ok n := by
  cases n with
  | none => rfl
  | some m => simp [timestamp, Json.ofNumber?, Json.finite?_of_finite (h m rfl), pure, Except.pure]

/-- A well-formed document is read back from its wire form as it was. -/
theorem ofJson_toJson (h : d.WellFormed) : ofJson d.toJson = .ok d := by
  have hscopes := mapM_map_self fun s hs => Scope.ofJson_toJson (h.scopes s hs)
  have hnames : checkNames (d.scopes.map (·.name)) = .ok () :=
    checkNames_of_unshared (by simpa using h.names)
  have hfrom := timestamp_of_finite "valid_from" h.validFrom
  have hto := timestamp_of_finite "valid_to" h.validTo
  have hwindow := h.window
  obtain ⟨partner, validFrom, validTo, scopes⟩ := d
  -- An open end is left out of the wire form, so each of the four shapes of a window is read apart.
  cases validFrom <;> cases validTo <;>
    simp_all [ofJson, toJson, numberField, Json.field, List.lookup_cons, Json.ofNumber?,
      pure, Except.pure]

end Document

end Allowance
