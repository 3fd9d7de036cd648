import Allowance.Evaluation
import Allowance.Proofs.Recased.Address

/-! # Decisions and letter case

A document that lists addresses in one spelling decides like the same document with the addresses in
another spelling, and so it does whichever way a request spells its recipient and its sender. The
decision is the same with its cause, since no cause of a denial shows an address.
-/

namespace Allowance

open List (Forall₂)

section Lists

variable {α β γ : Type} {R : α → β → Prop} {xs : List α} {ys : List β}

theorem map_eq_of_forall₂ {f : α → γ} {g : β → γ} (h : Forall₂ R xs ys)
    (hfg : ∀ a b, R a b → f a = g b) : xs.map f = ys.map g := by
  induction h with
  | nil => rfl
  | cons hab _ ih => rw [List.map_cons, List.map_cons, hfg _ _ hab, ih]

theorem find?_of_forall₂ {p : α → Bool} {q : β → Bool} (h : Forall₂ R xs ys)
    (hpq : ∀ a b, R a b → p a = q b) : Option.Rel R (xs.find? p) (ys.find? q) := by
  induction h with
  | nil => exact .none
  | @cons a b _ _ hab _ ih =>
    rw [List.find?_cons, List.find?_cons, hpq a b hab]
    split
    · exact .some hab
    · exact ih

end Lists

inductive Test.Recased : Test → Test → Prop
  | same (t : Test) : Recased t t
  | equalsText {s t : String} (h : Address.Recased s t) : Recased (.equalsText s) (.equalsText t)
  | includedIn {ss ts : List String} (h : Forall₂ Address.Recased ss ts) :
      Recased (.includedIn ss) (.includedIn ts)
  | notIncludedIn {ss ts : List String} (h : Forall₂ Address.Recased ss ts) :
      Recased (.notIncludedIn ss) (.notIncludedIn ts)

inductive Condition.Recased : Condition → Condition → Prop
  | same (c : Condition) : Recased c c
  | recipient {t t' : Test} (h : t.Recased t') : Recased ⟨.recipient, t⟩ ⟨.recipient, t'⟩
  | sender {t t' : Test} (h : t.Recased t') : Recased ⟨.sender, t⟩ ⟨.sender, t'⟩

structure Permission.Recased (p q : Permission) : Prop where
  effect : q.effect = p.effect
  chain : q.chain = p.chain
  action : q.action = p.action
  conditions : Forall₂ Condition.Recased p.conditions q.conditions

structure Scope.Recased (s t : Scope) : Prop where
  name : t.name = s.name
  description : t.description = s.description
  required : t.required = s.required
  permissions : Forall₂ Permission.Recased s.permissions t.permissions

/-- The documents are the same but for the spelling of the addresses in their conditions. -/
structure Document.Recased (d e : Document) : Prop where
  partner : e.partner = d.partner
  validFrom : e.validFrom = d.validFrom
  validTo : e.validTo = d.validTo
  scopes : Forall₂ Scope.Recased d.scopes e.scopes

structure Request.Recased (r q : Request) : Prop where
  chain : q.chain = r.chain
  action : q.action = r.action
  recipient : Option.Rel Address.Recased r.recipient q.recipient
  valueUsd : q.valueUsd = r.valueUsd
  sender : Option.Rel Address.Recased r.sender q.sender
  arguments : q.arguments = r.arguments

namespace Condition

variable {c c' : Condition} {r r' : Request} {t t' : Test} {s s' : String}

theorem checkAddress_eq (h : t.Recased t') (hs : Address.Recased s s') (resource : Resource)
    (role : AddressRole) :
    checkAddress ⟨resource, t⟩ s role = checkAddress ⟨resource, t'⟩ s' role := by
  have hkeys : ∀ {ss ts : List String}, Forall₂ Address.Recased ss ts →
      ss.map Address.key = ts.map Address.key :=
    fun hlisted => map_eq_of_forall₂ hlisted fun _ _ => Address.Recased.key
  cases h with
  | same t => simp only [checkAddress, hs.key]
  | equalsText ht => simp only [checkAddress, hs.key, ht.key]
  | includedIn hlisted => simp only [checkAddress, hs.key, hkeys hlisted]
  | notIncludedIn hlisted => simp only [checkAddress, hs.key, hkeys hlisted]

theorem bind_checkAddress {address address' : Option String} (h : t.Recased t')
    (ha : Option.Rel Address.Recased address address') (resource : Resource) (role : AddressRole) :
    (address.bind fun s => checkAddress ⟨resource, t⟩ s role) =
      address'.bind fun s => checkAddress ⟨resource, t'⟩ s role := by
  cases ha with
  | none => rfl
  | some hs => exact checkAddress_eq h hs resource role

theorem check_eq (hc : c.Recased c') (hr : r.Recased r') : c.check r = c'.check r' := by
  cases hc with
  | same c =>
    obtain ⟨resource, test⟩ := c
    cases resource with
    | value => simp only [check, hr.valueUsd]
    | recipient => exact bind_checkAddress (.same test) hr.recipient _ _
    | sender => exact bind_checkAddress (.same test) hr.sender _ _
    | argument spelling index => simp only [check, hr.arguments]
  | recipient h => exact bind_checkAddress h hr.recipient _ _
  | sender h => exact bind_checkAddress h hr.sender _ _

end Condition

namespace Document

variable {d e : Document} {r r' : Request}

theorem Recased.refl (d : Document) : d.Recased d := by
  refine ⟨rfl, rfl, rfl, List.forall₂_same.mpr fun s _ => ⟨rfl, rfl, rfl, ?_⟩⟩
  refine List.forall₂_same.mpr fun p _ => ⟨rfl, rfl, rfl, ?_⟩
  exact List.forall₂_same.mpr fun c _ => .same c

theorem Recased.forall_permissions (h : d.Recased e) :
    Forall₂ Permission.Recased d.permissions e.permissions :=
  List.rel_flatMap h.scopes fun _ _ hs => hs.permissions

theorem Recased.matching (h : d.Recased e) (hr : r.Recased r') :
    Forall₂ Permission.Recased (d.matching r) (e.matching r') := by
  refine List.rel_filter (fun p q hpq => ?_) h.forall_permissions
  simp only [Permission.covers, hpq.chain, hpq.action, hr.chain, hr.action]

theorem Recased.allowedChains (h : d.Recased e) : d.allowedChains = e.allowedChains := by
  refine congrArg firstPlaces (map_eq_of_forall₂ (List.rel_filter (fun p q hpq => ?_)
    h.forall_permissions) fun p q hpq => hpq.chain.symm)
  simp only [hpq.effect]

theorem Recased.decide (h : d.Recased e) (hr : r.Recased r') : d.decide r = e.decide r' := by
  have hmatching := h.matching hr
  have heffects : (d.matching r).map (·.effect) = (e.matching r').map (·.effect) :=
    map_eq_of_forall₂ hmatching fun _ _ hpq => hpq.effect.symm
  have hdenied : (d.matching r).any (·.effect == .deny) =
      (e.matching r').any (·.effect == .deny) := by
    simpa [List.any_map, Function.comp_def] using congrArg (List.any · (· == .deny)) heffects
  have hfind := find?_of_forall₂ (p := (·.effect == .allow)) (q := (·.effect == .allow)) hmatching
    fun _ _ hpq => by rw [hpq.effect]
  unfold Document.decide
  dsimp only
  rw [hdenied, h.allowedChains, hr.chain, hr.action]
  generalize (d.matching r).find? _ = found at hfind
  generalize (e.matching r').find? _ = found' at hfind
  cases hfind with
  | none => rfl
  | @some p q hpq =>
    have hchecks : p.conditions.map (·.check r) = q.conditions.map (·.check r') :=
      map_eq_of_forall₂ hpq.conditions fun _ _ hc => Condition.check_eq hc hr
    have hfailed : p.conditions.findSome? (·.check r) = q.conditions.findSome? (·.check r') := by
      simpa [List.findSome?_map] using congrArg (List.findSome? id) hchecks
    dsimp only
    rw [hfailed]

theorem Recased.evaluate (h : d.Recased e) (hr : r.Recased r') (now : Option Number) :
    d.evaluate r now = e.evaluate r' now := by
  have hwindow : d.checkWindow = e.checkWindow := by
    funext t
    simp only [Document.checkWindow, h.validFrom, h.validTo]
  simp only [Document.evaluate, hwindow, h.decide hr]

theorem Recased.evaluateAt (h : d.Recased e) (hr : r.Recased r') (now : Json) :
    d.evaluateAt r now = e.evaluateAt r' now := by
  unfold Document.evaluateAt
  simp only [h.evaluate hr, h.validFrom, h.validTo]

end Document

end Allowance
