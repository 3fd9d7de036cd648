import Allowance.Proofs.Recased.Registry
import Allowance.Proofs.Registry.Drafts
import Allowance.Proofs.Registry.Shelves

/-! # Letter case never matters

Two sessions of a registry go through the same errands, but each spells the addresses in its own
way. Corresponding errands then have the same outcome: the same decision, the same policies, or the
same fault, but for the spelling of an address that is quoted. After each of them policies, links
and published documents are stored under the same keys.
-/

namespace Allowance

open List (Forall₂)

inductive Operation.Recased : Operation → Operation → Prop
  | create {parent parent' : Json} {d d' : Draft} (hparent : parent.Recased parent')
      (hd : d.Recased d') : Recased (.create parent d) (.create parent' d')
  | update (id : Json) {c c' : Changes} (hc : c.Recased c') : Recased (.update id c) (.update id c')
  | toggle (id : Json) (entry : BlockedEntry) : Recased (.toggle id entry) (.toggle id entry)
  | setActive (id active : Json) : Recased (.setActive id active) (.setActive id active)
  | link (id : Json) {child child' : Json} (hchild : child.Recased child') :
      Recased (.link id child) (.link id child')
  | delete (id : Json) : Recased (.delete id) (.delete id)

inductive Errand.Recased : Errand → Errand → Prop
  | operation {o o' : Operation} (ho : o.Recased o') : Recased (.operation o) (.operation o')
  | policy (id : Json) : Recased (.policy id) (.policy id)
  | policies {parent parent' : Json} (hparent : parent.Recased parent') :
      Recased (.policies parent) (.policies parent')
  | link {child child' : Json} (hchild : child.Recased child') :
      Recased (.link child) (.link child')
  | childPolicy {child child' : Json} (hchild : child.Recased child') :
      Recased (.childPolicy child) (.childPolicy child')
  | preflight {child child' : Json} {tx tx' : Request} (hchild : child.Recased child')
      (htx : tx.Recased tx') (now : Json) :
      Recased (.preflight child tx now) (.preflight child' tx' now)
  | authorize {child child' : Json} {tx tx' : Request} (hchild : child.Recased child')
      (htx : tx.Recased tx') : Recased (.authorize child tx) (.authorize child' tx')
  | publish {child child' : Json} {p p' : Publication} (hchild : child.Recased child')
      (hpp' : p.Recased p') (hp : p.document.WellFormed) (hp' : p'.document.WellFormed) :
      Recased (.publish child p hp) (.publish child' p' hp')
  | published {child child' : Json} (hchild : child.Recased child') :
      Recased (.published child) (.published child')
  | require {child child' : Json} (hchild : child.Recased child') :
      Recased (.require child) (.require child')
  | withdraw {child child' : Json} (hchild : child.Recased child') :
      Recased (.withdraw child) (.withdraw child')

/-- The answers are the same but for the spelling of addresses that they quote. A decision quotes
none. -/
inductive Answer.Recased : Answer → Answer → Prop
  | done : Recased .done .done
  | policy {p q : PolicyRecord} (h : p.Recased q) : Recased (.policy p) (.policy q)
  | policies {ps qs : List PolicyRecord} (h : Forall₂ PolicyRecord.Recased ps qs) :
      Recased (.policies ps) (.policies qs)
  | link {found found' : Option LinkRecord} (h : Option.Rel LinkRecord.Recased found found') :
      Recased (.link found) (.link found')
  | childPolicy {found found' : Option PolicyRecord}
      (h : Option.Rel PolicyRecord.Recased found found') :
      Recased (.childPolicy found) (.childPolicy found')
  | advised (d : Decision) : Recased (.advised d) (.advised d)
  | decided (d : Decision) {p q : Option Publication} (h : Option.Rel Publication.Recased p q) :
      Recased (.decided d p) (.decided d q)
  | publication {p q : Publication} (h : p.Recased q) : Recased (.publication p) (.publication q)
  | published {found found' : Option Publication}
      (h : Option.Rel Publication.Recased found found') :
      Recased (.published found) (.published found')

namespace Registry

variable {r : Registry} {w w' : World} {errands errands' : List Errand}

theorem operate_recased {o o' : Operation} (h : o.Recased o') :
    (r.operate o).Recased r Answer.Recased (r.operate o') := by
  cases h with
  | create hparent hd => exact .map (create_recased hparent hd) fun _ _ => .policy
  | update id hc => exact .map (update_recased hc) fun _ _ => .policy
  | toggle id entry => exact .map toggle_recased fun _ _ => .policy
  | setActive id active => exact .map (update_recased (.refl _)) fun _ _ => .policy
  | link id hchild => exact .map (link_recased hchild) fun _ _ => .policy
  | delete id => exact .map delete_recased fun _ _ _ => .done

theorem answer_recased {errand errand' : Errand} (h : errand.Recased errand') :
    (r.answer errand).Recased r Answer.Recased (r.answer errand') := by
  cases h with
  | operation ho => exact operate_recased ho
  | policy id => exact .map get_recased fun _ _ => .policy
  | policies hparent => exact .map (list_recased hparent) fun _ _ => .policies
  | link hchild => exact .map (link?_recased hchild) fun _ _ => .link
  | childPolicy hchild => exact .map (childPolicy?_recased hchild) fun _ _ => .childPolicy
  | preflight hchild htx now =>
    apply Step.Related.map (preflight_recased hchild htx)
    rintro d _ rfl
    exact .advised d
  | authorize hchild htx =>
    apply Step.Related.map (Shelf.authorize_recased hchild htx)
    rintro ⟨d, p⟩ ⟨_, q⟩ ⟨rfl, hpq⟩
    exact .decided d hpq
  | publish hchild hpp' hp hp' =>
    exact .map (Shelf.put_recased hchild hpp' (Or.inr ⟨hp, hp'⟩)) fun _ _ _ => .done
  | published hchild => exact .map (Shelf.get?_recased hchild) fun _ _ => .published
  | require hchild => exact .map (Shelf.require_recased hchild) fun _ _ => .publication
  | withdraw hchild => exact .map (Shelf.remove_recased hchild) fun _ _ _ => .done

/-- From recased worlds on, all errands have recased results and leave recased worlds. -/
theorem session_recased_of_recased (h : World.Recased r w w')
    (herrands : Forall₂ Errand.Recased errands errands') :
    Forall₂ (fun left right =>
        Checked.Related Fault.Recased Answer.Recased left.1 right.1 ∧
          World.Recased r left.2 right.2)
      (r.session w errands) (r.session w' errands') := by
  induction herrands generalizing w w' with
  | nil => exact .nil
  | cons herrand _ ih =>
    obtain ⟨hresult, hworld⟩ := answer_recased herrand w w' h
    exact .cons ⟨hresult, hworld⟩ (ih hworld)

theorem Blank.recased (hw : r.Blank w) (hw' : r.Blank w')
    (htime : w'.sources.time = w.sources.time) (hid : w'.sources.id = w.sources.id)
    (htimes : w'.times = w.times) (hids : w'.ids = w.ids) : World.Recased r w w' where
  separate := hw.separate
  time := htime
  id := hid
  times := htimes
  ids := hids
  policies := ⟨[], [], hw.policies, hw'.policies, .nil⟩
  links := ⟨[], [], hw.links, hw'.links, .nil⟩
  published := by
    have hp := hw.published
    have hp' := hw'.published
    unfold Shelf.Recased
    split <;> rename_i hshelf <;> rw [hshelf] at hp hp'
    · dsimp only at hp hp'
      rw [hp, hp']
      exact .nil
    · exact ⟨[], [], hp, hp', .nil⟩

/-- Letter case of addresses never matters. When nothing is stored, the clock and the ids are the
same, and two sessions differ in the spelling of addresses alone, then corresponding errands have
results that differ in the spelling of addresses alone: both succeed, with the same decisions, the
same policies by their ids and the same links, or both fail with the same kind of fault. After each
errand the sections of both state files and both shelves have the same keys. -/
theorem session_either_spelling (hw : r.Blank w) (hw' : r.Blank w')
    (htime : w'.sources.time = w.sources.time) (hid : w'.sources.id = w.sources.id)
    (htimes : w'.times = w.times) (hids : w'.ids = w.ids)
    (herrands : Forall₂ Errand.Recased errands errands') :
    Forall₂ (fun left right =>
        Checked.Related Fault.Recased Answer.Recased left.1 right.1 ∧
          World.Recased r left.2 right.2)
      (r.session w errands) (r.session w' errands') :=
  session_recased_of_recased (hw.recased hw' htime hid htimes hids) herrands

section Household

def onlyTo (address : String) : Document where
  partner := .string defaultPartner
  validFrom := none
  validTo := none
  scopes := [{
    name := .string "gift"
    description := .string ""
    required := true
    permissions := [⟨.allow, "8453", .transfer, [⟨.recipient, .equalsText address⟩]⟩] }]

theorem onlyTo_wellFormed (address : String) : (onlyTo address).WellFormed where
  scopes := by
    have hresource : Resource.recipient.WellFormed := rfl
    simp [onlyTo, Scope.WellFormed, Permission.WellFormed, Condition.WellFormed, Test.WellFormed,
      hresource]
  names := by simp [onlyTo, Json.same]
  validFrom := nofun
  validTo := nofun
  window := rfl

theorem onlyTo_recased {s t : String} (h : Address.Recased s t) :
    (onlyTo s).Recased (onlyTo t) :=
  ⟨rfl, rfl, rfl, .cons ⟨rfl, rfl, rfl, .cons ⟨rfl, rfl, rfl,
    .cons (.recipient (.equalsText h)) .nil⟩ .nil⟩ .nil⟩

/-- The mother makes a policy for payments to one address and links it to the child there. She looks
at her policies, and the child pays the address, until another document is published for it. -/
def spelledDay (address : String) : List Errand := [
  .operation (.create (.string mother) (weeklyTo address)),
  .operation (.link (.string "weekly") (.string address)),
  .policies (.string mother),
  .authorize (.string address) { purchase with recipient := some address },
  .publish (.string address) ⟨.string mother, onlyTo address⟩ (onlyTo_wellFormed address),
  .require (.string address)]

theorem spelledDay_recased {s t : String} (h : Address.Recased s t) :
    Forall₂ Errand.Recased (spelledDay s) (spelledDay t) := by
  have hchild : Json.Recased (.string s) (.string t) := .text h
  have hdraft : (weeklyTo s).Recased (weeklyTo t) :=
    ⟨_, rfl, Or.inr ⟨_, _, rfl, rfl, .cons hchild .nil⟩⟩
  have hpublication : Publication.Recased ⟨.string mother, onlyTo s⟩ ⟨.string mother, onlyTo t⟩ :=
    ⟨.same _, onlyTo_recased h⟩
  refine .cons (.operation (.create (.same _) hdraft)) (.cons (.operation (.link _ hchild)) ?_)
  refine .cons (.policies (.same _)) (.cons (.authorize hchild ?_) ?_)
  · exact ⟨rfl, rfl, .some h, rfl, .none, rfl⟩
  · exact .cons (.publish hchild hpublication _ _) (.cons (.require hchild) .nil)

theorem daughter_recased : Address.Recased daughter daughterLoud :=
  Or.inr ⟨_, _, rfl, rfl, by decide +kernel⟩

theorem household_either_spelling : household.Blank morning ∧
    Forall₂ Errand.Recased (spelledDay daughter) (spelledDay daughterLoud) ∧
    Forall₂ (fun left right =>
        Checked.Related Fault.Recased Answer.Recased left.1 right.1 ∧
          World.Recased household left.2 right.2)
      (household.session morning (spelledDay daughter))
      (household.session morning (spelledDay daughterLoud)) := by
  have hdays := spelledDay_recased daughter_recased
  exact ⟨household_blank, hdays,
    session_either_spelling household_blank household_blank rfl rfl rfl rfl hdays⟩

end Household

end Registry

end Allowance
