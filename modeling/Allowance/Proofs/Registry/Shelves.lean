import Allowance.Proofs.Document.Reading
import Allowance.Proofs.Registry.Authority
import Allowance.Proofs.Registry.Quiet
import Allowance.Proofs.Registry.Twins

/-! # One registry, two shelves

A registry can publish in memory or in its state file. Whatever it is asked for, one errand after
another, it answers the same on either shelf, and leaves the same policies, links and published
documents. A document that goes through the file comes back as it was because whatever is published
was compiled, read from a record, or handed over as a well-formed document.
-/

namespace Allowance

open Checked Step

open World (Twins)

variable {p : PolicyRecord} {v child id : Json}

namespace PolicyRecord

def Rereadable (p : PolicyRecord) : Prop := ∀ d, p.document = some d → d.WellFormed

theorem rereadable_of_ofJson (h : ofJson v = .ok p) : p.Rereadable := by
  simp only [ofJson, bind_eq_ok] at h
  obtain ⟨_, -, document, -, _, -, _, -, _, -, _, -, _, -, _, -, _, -, _, -, _, -, h⟩ := h
  split at h
  all_goals
    simp only [bind_eq_ok] at h
    obtain ⟨_, -, _, -, _, -, _, -, _, -, _, -, h⟩ := h
    split at h
    all_goals
      simp only [bind_eq_ok, pure_eq_ok] at h
      obtain ⟨read, hread, _, -, _, -, rfl⟩ := h
      intro d hd
      obtain rfl : read = some d := hd
      simp [map_eq_ok] at hread
  · exact Document.wellFormed_of_ofJson hread
  · exact Document.wellFormed_of_ofJson hread

end PolicyRecord

namespace Registry

variable {r : Registry}

def inMemory (r : Registry) : Registry := { r with shelf := .memory }

def inFile (r : Registry) : Registry := { r with shelf := .file r.path }

theorem get_alike : (r.inMemory.get id).Alike (Twins r.path) PolicyRecord.Rereadable
    (r.inFile.get id) := by
  refine .bind (P := fun _ => True) ?_ fun v _ => ?_
  · unfold stored
    split
    · exact State.get_alike (by simp)
    · refine .bind (State.get_alike (by simp)) fun _ _ => ?_
      split
      · exact .pure trivial
      · exact .throw _
  · split
    · exact .throw _
    · exact .lift _ fun p hp => PolicyRecord.rereadable_of_ofJson hp

theorem list_alike {parent : Json} : (r.inMemory.list parent).Alike (Twins r.path)
    (fun _ => True) (r.inFile.list parent) := by
  refine .bind (State.values_alike (by simp)) fun records _ => ?_
  refine .bind (.mapM fun v _ => .ofChecked _ fun _ _ => trivial) fun all _ => ?_
  dsimp only
  split
  · refine .bind (P := fun _ => True) (.pure trivial) fun owned _ => ?_
    split
    · exact .pure trivial
    · exact .throw _
  · refine .bind (.lift _ fun _ _ => trivial) fun key _ => ?_
    refine .bind (.mapM fun p _ => .ofChecked _ fun _ _ => trivial) fun keys _ => ?_
    refine .bind (P := fun _ => True) (.pure trivial) fun owned _ => ?_
    split
    · exact .pure trivial
    · exact .throw _

theorem link?_alike : (r.inMemory.link? child).Alike (Twins r.path) (fun _ => True)
    (r.inFile.link? child) := by
  refine .bind (.lift _ fun _ _ => trivial) fun key _ => ?_
  refine .bind (State.get_alike (by simp)) fun v _ => ?_
  split
  · exact .pure trivial
  · exact .map (.lift _ fun _ _ => trivial) fun _ _ => trivial

theorem found?_alike {α : Type} {R : World → World → Prop} {P : α → Prop} {left right : Step α}
    (h : left.Alike R P right) :
    (found? left).Alike R (fun found => ∀ a, found = some a → P a) (found? right) := by
  refine .tryCatch (.map h fun a ha => ?_) fun e => ?_
  · rintro _ ⟨⟩
    exact ha
  · split
    · exact .pure nofun
    · exact .throw _

theorem childPolicy?_alike : (r.inMemory.childPolicy? child).Alike (Twins r.path)
    (fun _ => True) (r.inFile.childPolicy? child) := by
  refine .bind link?_alike fun found _ => ?_
  split
  · exact .pure trivial
  · refine .bind (found?_alike get_alike) fun found _ => ?_
    split
    · exact .pure trivial
    · exact .bind World.Twins.log fun _ _ => .pure trivial

theorem save_alike : (r.inMemory.save p).Alike (Twins r.path) (fun _ => True)
    (r.inFile.save p) := by
  refine .bind (.lift _ fun _ _ => trivial) fun record _ => ?_
  refine .bind (.lift _ fun _ _ => trivial) fun key _ => ?_
  exact State.put_alike (by simp)

/-- What is published can be read back, so it is the same on either shelf. -/
theorem publish_alike (hp : p.Rereadable) : (r.inMemory.publish p).Alike (Twins r.path)
    (fun _ => True) (r.inFile.publish p) := by
  unfold publish
  split
  · exact .pure trivial
  · split
    · rename_i document hdocument
      split
      · exact Shelf.put_alike (hp document hdocument)
      · exact Shelf.remove_alike
    · exact Shelf.remove_alike

theorem unlink_alike : (r.inMemory.unlink child).Alike (Twins r.path) (fun _ => True)
    (r.inFile.unlink child) := by
  refine .bind (.lift _ fun _ _ => trivial) fun key _ => ?_
  exact .bind (State.delete_alike (by simp)) fun _ _ => Shelf.remove_alike

theorem release_alike : (r.inMemory.release id child).Alike (Twins r.path) (fun _ => True)
    (r.inFile.release id child) := by
  refine .bind link?_alike fun found _ => ?_
  split
  · exact .pure trivial
  · split
    · exact .pure trivial
    · refine .bind (found?_alike get_alike) fun found _ => ?_
      split
      · exact .pure trivial
      · exact .bind World.Twins.now fun _ _ => save_alike

theorem create_alike {parent : Json} {draft : Draft} :
    (r.inMemory.create parent draft).Alike (Twins r.path) (fun _ => True)
      (r.inFile.create parent draft) := by
  refine .refuse (.bind World.Twins.now fun now _ => ?_)
  refine .bind (.lift _ fun _ _ => trivial) fun blank _ => ?_
  refine .bind World.Twins.freshId fun fresh _ => ?_
  refine .bind (.lift _ fun _ _ => trivial) fun document _ => ?_
  refine .bind save_alike fun _ _ => ?_
  exact .bind World.Twins.log fun _ _ => .pure trivial

theorem wellFormed_of_compile {d : Document} (h : r.compile p = .ok d) : d.WellFormed :=
  (PolicyRecord.compiledBy_of_compile h).document_wellFormed d rfl

theorem recompile_alike {c : Changes} (hp : p.Rereadable) :
    (r.inMemory.recompile id c p).Alike (Twins r.path) PolicyRecord.Rereadable
      (r.inFile.recompile id c p) := by
  have hcompile : r.inFile.compile p = r.inMemory.compile p := rfl
  unfold recompile
  rw [hcompile]
  split
  · exact .pure hp
  · split
    · rename_i document hdocument
      refine .pure ?_
      rintro d ⟨⟩
      exact wellFormed_of_compile hdocument
    · exact .bind World.Twins.log fun _ _ => .throw _
    · exact .throw _

theorem update_alike {c : Changes} : (r.inMemory.update id c).Alike (Twins r.path)
    (fun _ => True) (r.inFile.update id c) := by
  refine .refuse (.bind get_alike fun current hcurrent => ?_)
  have hchanged : ∀ changed, c.apply current = .ok changed → changed.Rereadable := by
    intro changed happly d hd
    exact hcurrent d ((Changes.keeps_of_apply happly).document ▸ hd)
  refine .bind (.lift _ hchanged) fun changed hchanged => ?_
  refine .bind World.Twins.now fun now _ => ?_
  refine .bind (recompile_alike hchanged) fun p hp => ?_
  refine .bind save_alike fun _ _ => .bind (publish_alike hp) fun _ _ => ?_
  exact .bind World.Twins.log fun _ _ => .pure trivial

theorem toggle_alike {entry : BlockedEntry} : (r.inMemory.toggle id entry).Alike (Twins r.path)
    (fun _ => True) (r.inFile.toggle id entry) := by
  unfold toggle
  split
  · exact .throw _
  · refine .bind get_alike fun current _ => .bind (.lift _ fun _ _ => trivial) fun blocked _ => ?_
    exact update_alike

theorem delete_alike : (r.inMemory.delete id).Alike (Twins r.path) (fun _ => True)
    (r.inFile.delete id) := by
  refine .bind get_alike fun p _ => ?_
  split
  · refine .bind (.lift _ fun _ _ => trivial) fun key _ => ?_
    exact .bind (State.delete_alike (by simp)) fun _ _ => World.Twins.log
  · refine .bind unlink_alike fun _ _ => .bind (.lift _ fun _ _ => trivial) fun key _ => ?_
    exact .bind (State.delete_alike (by simp)) fun _ _ => World.Twins.log

theorem attach_alike {key : String} (hp : p.Rereadable) :
    (r.inMemory.attach id child key p).Alike (Twins r.path) (fun _ => True)
      (r.inFile.attach id child key p) := by
  refine .bind release_alike fun _ _ => .bind World.Twins.now fun now _ => ?_
  refine .bind save_alike fun _ _ => .bind (State.put_alike (by simp)) fun _ _ => ?_
  refine .bind (publish_alike hp) fun _ _ => ?_
  exact .bind World.Twins.log fun _ _ => .pure trivial

theorem link_alike : (r.inMemory.link id child).Alike (Twins r.path) (fun _ => True)
    (r.inFile.link id child) := by
  refine .refuse (.bind (.lift _ fun _ _ => trivial) fun key _ => ?_)
  refine .bind get_alike fun p hp => ?_
  split
  · exact attach_alike hp
  · refine .bind (.ofChecked _ fun _ _ => trivial) fun other _ => ?_
    split
    · exact .bind unlink_alike fun _ _ => attach_alike hp
    · exact attach_alike hp

theorem preflight_alike {tx : Request} : (r.inMemory.preflight child tx v).Alike (Twins r.path)
    (fun _ => True) (r.inFile.preflight child tx v) := by
  refine .bind childPolicy?_alike fun found _ => ?_
  split
  · exact .pure trivial
  · split
    · exact .pure trivial
    · split
      · exact .pure trivial
      · split
        · exact .bind World.Twins.now fun now _ => .pure trivial
        · exact .lift _ fun _ _ => trivial

end Registry

theorem Shelf.authorize_alike {path : String} {tx : Request} :
    (Shelf.memory.authorize child tx).Alike (Twins path) (fun _ => True)
      ((Shelf.file path).authorize child tx) := by
  refine .bind Shelf.get?_alike fun found _ => ?_
  split
  · exact .bind World.Twins.log fun _ _ => .pure trivial
  · refine .bind World.Twins.now fun now _ => ?_
    exact .bind World.Twins.log fun _ _ => .pure trivial

/-- What a registry and its shelf can be asked for: an operation, something to look up, a decision
on a request, or what is published for a child. -/
inductive Errand
  | operation (o : Operation)
  | policy (id : Json)
  | policies (parent : Json)
  | link (child : Json)
  | childPolicy (child : Json)
  | preflight (child : Json) (tx : Request) (now : Json)
  | authorize (child : Json) (tx : Request)
  | publish (child : Json) (p : Publication) (hp : p.document.WellFormed)
  | published (child : Json)
  | require (child : Json)
  | withdraw (child : Json)

inductive Answer
  | done
  | policy (p : PolicyRecord)
  | policies (ps : List PolicyRecord)
  | link (found : Option LinkRecord)
  | childPolicy (found : Option PolicyRecord)
  | advised (d : Decision)
  | decided (d : Decision) (p : Option Publication)
  | publication (p : Publication)
  | published (found : Option Publication)

namespace Registry

variable {r : Registry} {w w' : World}

def operate (r : Registry) : Operation → Step Answer
  | .create parent draft => .policy <$> r.create parent draft
  | .update id changes => .policy <$> r.update id changes
  | .toggle id entry => .policy <$> r.toggle id entry
  | .setActive id active => .policy <$> r.setActive id active
  | .link id child => .policy <$> r.link id child
  | .delete id => (fun _ => .done) <$> r.delete id

def answer (r : Registry) : Errand → Step Answer
  | .operation o => r.operate o
  | .policy id => .policy <$> r.get id
  | .policies parent => .policies <$> r.list parent
  | .link child => .link <$> r.link? child
  | .childPolicy child => .childPolicy <$> r.childPolicy? child
  | .preflight child tx now => .advised <$> r.preflight child tx now
  | .authorize child tx => (fun (d, p) => .decided d p) <$> r.shelf.authorize child tx
  | .publish child p _ => (fun _ => .done) <$> r.shelf.put child p
  | .published child => .published <$> r.shelf.get? child
  | .require child => .publication <$> r.shelf.require child
  | .withdraw child => (fun _ => .done) <$> r.shelf.remove child

/-- Errands done one after another, whatever fails: the results and the worlds after them. -/
def session (r : Registry) (w : World) : List Errand → List (Checked Answer × World)
  | [] => []
  | errand :: rest =>
    let (result, w') := (r.answer errand).perform w
    (result, w') :: r.session w' rest

theorem operate_alike (o : Operation) : (r.inMemory.operate o).Alike (Twins r.path)
    (fun _ => True) (r.inFile.operate o) := by
  cases o with
  | create parent draft => exact .map create_alike fun _ _ => trivial
  | update id changes => exact .map update_alike fun _ _ => trivial
  | toggle id entry => exact .map toggle_alike fun _ _ => trivial
  | setActive id active => exact .map update_alike fun _ _ => trivial
  | link id child => exact .map link_alike fun _ _ => trivial
  | delete id => exact .map delete_alike fun _ _ => trivial

theorem answer_alike (errand : Errand) : (r.inMemory.answer errand).Alike (Twins r.path)
    (fun _ => True) (r.inFile.answer errand) := by
  cases errand with
  | operation o => exact operate_alike o
  | policy id => exact .map get_alike fun _ _ => trivial
  | policies parent => exact .map list_alike fun _ _ => trivial
  | link child => exact .map link?_alike fun _ _ => trivial
  | childPolicy child => exact .map childPolicy?_alike fun _ _ => trivial
  | preflight child tx now => exact .map preflight_alike fun _ _ => trivial
  | authorize child tx => exact .map Shelf.authorize_alike fun _ _ => trivial
  | publish child p hp => exact .map (Shelf.put_alike hp) fun _ _ => trivial
  | published child => exact .map Shelf.get?_alike fun _ _ => trivial
  | require child => exact .map Shelf.require_alike fun _ _ => trivial
  | withdraw child => exact .map Shelf.remove_alike fun _ _ => trivial

/-- From twin worlds on, all errands are answered alike. -/
theorem session_alike (h : Twins r.path w w') (errands : List Errand) :
    List.Forall₂ (fun left right => left.1 = right.1 ∧ Twins r.path left.2 right.2)
      (r.inMemory.session w errands) (r.inFile.session w' errands) := by
  induction errands generalizing w w' with
  | nil => exact .nil
  | cons errand rest ih =>
    obtain ⟨result, v, v', hleft, hright, hv, -⟩ := answer_alike errand w w' h
    simp only [session, hleft, hright]
    exact .cons ⟨rfl, hv⟩ (ih hv)

theorem Blank.twins (hmemory : r.inMemory.Blank w) (hfile : r.inFile.Blank w) :
    Twins r.path w w where
  time := rfl
  id := rfl
  times := rfl
  ids := rfl
  policies := ⟨[], hmemory.policies, hmemory.policies⟩
  links := ⟨[], hmemory.links, hmemory.links⟩
  published := ⟨_, hmemory.holds.published, hfile.holds.published⟩

/-- It does not matter on which shelf documents are published. When nothing is stored, a registry
that publishes in memory and one that publishes in its state file go through the same errands with
the same results, and after each of them policies, links and published documents are the same. -/
theorem session_either_shelf (hmemory : r.inMemory.Blank w) (hfile : r.inFile.Blank w)
    (errands : List Errand) :
    List.Forall₂ (fun left right => left.1 = right.1 ∧ Twins r.path left.2 right.2)
      (r.inMemory.session w errands) (r.inFile.session w errands) :=
  session_alike (hmemory.twins hfile) errands

/-- The mother makes a policy and links it to her daughter, who pays, until what is published for
her is withdrawn. -/
def allowanceDay : List Errand := [
  .operation (.create (.string mother) weekly),
  .operation (.link (.string "weekly") (.string daughter)),
  .authorize (.string "0xDE709F2102306220921060314715629080E2FB77") purchase,
  .withdraw (.string daughter),
  .require (.string daughter)]

theorem household_either_shelf :
    household.inMemory.Blank morning ∧ household.inFile.Blank morning ∧
      List.Forall₂ (fun left right => left.1 = right.1 ∧ Twins household.path left.2 right.2)
        (household.inMemory.session morning allowanceDay)
        (household.inFile.session morning allowanceDay) := by
  have hfile : household.inFile.Blank morning := household_blank
  have hmemory : household.inMemory.Blank morning :=
    ⟨nofun, household_blank.policies, household_blank.links, rfl⟩
  exact ⟨hmemory, hfile, session_either_shelf hmemory hfile allowanceDay⟩

end Registry

end Allowance
