import Allowance.Proofs.Document.Reading
import Allowance.Proofs.Recased.Evaluation
import Allowance.Proofs.Registry.Changes
import Allowance.Proofs.World.Pair

/-! # Records and letter case

A record keeps the spellings of the parent and of the child that it was given; all other addresses
in it are keys. Records that differ in these spellings alone are written in the same way and read in
the same way, and they take the same changes.
-/

namespace Allowance

open Checked

open List (Forall₂)

/-- The faults are the same but for the spelling of an address that they report. -/
inductive Fault.Recased : Fault → Fault → Prop
  | same (e : Fault) : Recased e e
  | noPolicy {s t : String} (h : Address.Recased s t) : Recased (.noPolicy s) (.noPolicy t)
  | badParent {u v : Json} (h : u.Recased v) :
      Recased (.options (.badParent u)) (.options (.badParent v))
  | badChild {u v : Json} (h : u.Recased v) :
      Recased (.options (.badChild u)) (.options (.badChild v))

def PolicyRecord.Recased (p q : PolicyRecord) : Prop :=
  ∃ parent child, q = { p with parent, child } ∧ p.parent.Recased parent ∧ p.child.Recased child

def LinkRecord.Recased (l m : LinkRecord) : Prop :=
  ∃ parent, m = { l with parent } ∧ l.parent.Recased parent

structure Publication.Recased (p q : Publication) : Prop where
  parent : p.parent.Recased q.parent
  document : p.document.Recased q.document

def Draft.Recased (d e : Draft) : Prop :=
  ∃ allowedAddresses, e = { d with allowedAddresses } ∧
    d.allowedAddresses.RecasedParts allowedAddresses

def Changes.Recased (c d : Changes) : Prop :=
  ∃ allowedAddresses, d = { c with allowedAddresses } ∧
    Option.Rel Json.RecasedParts c.allowedAddresses allowedAddresses

namespace PolicyRecord

variable {p q : PolicyRecord} {u v : Json}

theorem Recased.id (h : p.Recased q) : q.id = p.id := by
  obtain ⟨_, _, rfl, -, -⟩ := h
  rfl

theorem Recased.parent (h : p.Recased q) : p.parent.Recased q.parent := by
  obtain ⟨_, _, rfl, hparent, -⟩ := h
  exact hparent

theorem Recased.child (h : p.Recased q) : p.child.Recased q.child := by
  obtain ⟨_, _, rfl, -, hchild⟩ := h
  exact hchild

theorem Recased.with_time (h : p.Recased q) (updatedAt : Json) :
    Recased { p with updatedAt } { q with updatedAt } := by
  obtain ⟨parent, child, rfl, hparent, hchild⟩ := h
  exact ⟨parent, child, rfl, hparent, hchild⟩

theorem Recased.with_child {child child' : Json} (h : p.Recased q) (hchild : child.Recased child')
    (updatedAt : Json) :
    Recased { p with child, updatedAt } { q with child := child', updatedAt } := by
  obtain ⟨parent, -, rfl, hparent, -⟩ := h
  exact ⟨parent, child', rfl, hparent, hchild⟩

/-- What recased records are written as. -/
def RecasedWire (u v : Json) : Prop :=
  ∃ p q : PolicyRecord, ∃ chains addresses words, p.Recased q ∧
    u = p.wire chains addresses words ∧ v = q.wire chains addresses words

theorem Recased.toJson (h : p.Recased q) :
    Related Fault.Recased RecasedWire p.toJson q.toJson := by
  have hrecased := h
  obtain ⟨parent, child, rfl, -, -⟩ := h
  rw [toJson_eq, toJson_eq]
  refine .bind_same .same _ fun chains => .bind_same .same _ fun addresses => ?_
  refine .bind_same .same _ fun words => .ok ?_
  exact ⟨_, _, chains, addresses, words, hrecased, rfl, rfl⟩

theorem RecasedWire.ofJson (h : RecasedWire u v) :
    Related Fault.Recased Recased (ofJson u) (ofJson v) := by
  obtain ⟨p, _, chains, addresses, words, ⟨parent, child, rfl, hparent, hchild⟩, rfl, rfl⟩ := h
  rw [ofJson_wire_eq, ofJson_wire_eq]
  refine .bind_same .same _ fun allowedChains => .bind_same .same _ fun allowedAddresses => ?_
  refine .bind_same .same _ fun actions => .bind_same .same _ fun document => .ok ?_
  exact ⟨parent, child, rfl, hparent, hchild⟩

end PolicyRecord

theorem Draft.Recased.toRecord {d e : Draft} {parent parent' : Json} (h : d.Recased e)
    (hparent : parent.Recased parent') (id createdAt : Json) :
    Related Fault.Recased PolicyRecord.Recased (d.toRecord parent id createdAt)
      (e.toRecord parent' id createdAt) := by
  obtain ⟨allowedAddresses, rfl, haddresses⟩ := h
  unfold Draft.toRecord
  rw [← PolicyRecord.addressSet_eq haddresses]
  apply Related.bind_same .same
  intro chains
  apply Related.bind_same .same
  intro addresses
  apply Related.bind_same .same
  intro blocked
  exact .ok ⟨parent', .null, rfl, hparent, .same _⟩

namespace Changes

variable {c d : Changes} {p q : PolicyRecord}

theorem Recased.refl (c : Changes) : c.Recased c := by
  refine ⟨c.allowedAddresses, rfl, ?_⟩
  cases c.allowedAddresses with
  | none => exact .none
  | some v => exact .some (Or.inl (.same v))

theorem Recased.fields (h : c.Recased d) :
    d.compiledFields = c.compiledFields ∧ d.fields = c.fields ∧ d.fixed = c.fixed := by
  obtain ⟨allowedAddresses, rfl, haddresses⟩ := h
  have hgiven : allowedAddresses.isSome = c.allowedAddresses.isSome := by
    generalize c.allowedAddresses = addresses at haddresses
    cases haddresses <;> rfl
  simp only [Changes.fields, compiledFields, hgiven, and_self]

theorem Recased.apply (h : c.Recased d) (hp : p.Recased q) :
    Related Fault.Recased PolicyRecord.Recased (c.apply p) (d.apply q) := by
  obtain ⟨allowedAddresses, rfl, haddresses⟩ := h
  obtain ⟨parent, child, rfl, hparent, hchild⟩ := hp
  have hset : changed allowedAddresses PolicyRecord.addressSet p.allowedAddresses =
      changed c.allowedAddresses PolicyRecord.addressSet p.allowedAddresses := by
    generalize c.allowedAddresses = addresses at haddresses
    cases haddresses with
    | none => rfl
    | some hparts => exact (PolicyRecord.addressSet_eq hparts).symm
  rw [apply_eq, apply_eq]
  dsimp only
  rw [hset]
  apply Related.bind_same .same
  intro chains
  apply Related.bind_same .same
  intro addresses
  apply Related.bind_same .same
  intro blocked
  exact .ok ⟨parent, child, rfl, hparent, hchild⟩

end Changes

def LinkRecord.RecasedWire (u v : Json) : Prop :=
  ∃ l m : LinkRecord, l.Recased m ∧ u = l.toJson ∧ v = m.toJson

theorem LinkRecord.RecasedWire.ofJson {u v : Json} (h : RecasedWire u v) :
    Related Fault.Recased LinkRecord.Recased (LinkRecord.ofJson u) (LinkRecord.ofJson v) := by
  obtain ⟨l, m, hlinks, rfl, rfl⟩ := h
  exact .ok hlinks

/-- What recased publications are written as. Where their documents are not the same, these are
documents that are read back as they were. -/
def Publication.RecasedWire (u v : Json) : Prop :=
  ∃ p q : Publication, p.Recased q ∧
    (q.document = p.document ∨ p.document.WellFormed ∧ q.document.WellFormed) ∧
    u = p.toJson ∧ v = q.toJson

theorem Publication.RecasedWire.ofJson {u v : Json} (h : RecasedWire u v) :
    Related Fault.Recased Publication.Recased (Publication.ofJson u) (Publication.ofJson v) := by
  obtain ⟨p, q, hpq, hdocument | ⟨hp, hq⟩, rfl, rfl⟩ := h
  · have hread : Related Fault.Recased Publication.Recased
        (Document.ofJson p.document.toJson >>= fun document => pure { p with document })
        (Document.ofJson p.document.toJson >>= fun document => pure { q with document }) :=
      .bind_same .same _ fun d => .ok ⟨hpq.parent, .refl d⟩
    nth_rewrite 2 [← hdocument] at hread
    exact hread
  · rw [Publication.ofJson_toJson hp, Publication.ofJson_toJson hq]
    exact .ok hpq

end Allowance
