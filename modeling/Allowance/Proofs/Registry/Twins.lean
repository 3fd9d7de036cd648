import Allowance.Proofs.Registry.Tables
import Allowance.Proofs.World.Pair

/-! # Twin worlds

In one world documents are published in memory, in the other one in the state file. The worlds are
twins when policies and links are stored alike, the same is published, and the clock and the source
of ids have come equally far. What reads or writes one of the tables is alike in twin worlds.
-/

namespace Allowance

open Step

/-- Memory in the first world and the state file in the second publish the same, and in everything
else that a registry reads the worlds agree. -/
structure World.Twins (path : String) (w w' : World) : Prop where
  time : w'.sources.time = w.sources.time
  id : w'.sources.id = w.sources.id
  times : w'.times = w.times
  ids : w'.ids = w.ids
  policies : State.Same w.disk w'.disk path State.policies
  links : State.Same w.disk w'.disk path State.links
  published : ∃ published, Shelf.memory.Holds w published ∧ (Shelf.file path).Holds w' published

open World (Twins)

variable {path name key : String} {w w' : World} {d d' : Disk} {v child : Json}
  {pub : Publication}

namespace World.Twins

theorem now : Step.now.Alike (Twins path) (fun _ => True) Step.now := by
  intro w w' h
  refine ⟨_, _, { w' with times := w'.times + 1 }, perform_now, ?_, ?_, fun _ _ => trivial⟩
  · rw [perform_now, h.time, h.times]
  · exact { h with times := congrArg (· + 1) h.times }

theorem freshId : Step.freshId.Alike (Twins path) (fun _ => True) Step.freshId := by
  intro w w' h
  refine ⟨_, _, { w' with ids := w'.ids + 1 }, perform_freshId, ?_, ?_, fun _ _ => trivial⟩
  · rw [perform_freshId, h.id, h.ids]
  · exact { h with ids := congrArg (· + 1) h.ids }

theorem log {level level' : Level} {logger logger' message message' : String} :
    (Step.log level logger message).Alike (Twins path) (fun _ => True)
      (Step.log level' logger' message') :=
  fun _ _ h => ⟨_, _, _, perform_log, perform_log, { h with }, fun _ _ => trivial⟩

theorem same (h : w.Twins path w') (hname : name ∈ [State.policies, State.links]) :
    State.Same w.disk w'.disk path name := by
  simp only [List.mem_cons, List.not_mem_nil, or_false] at hname
  rcases hname with rfl | rfl
  · exact h.policies
  · exact h.links

theorem of_section (h : w.Twins path w') (hname : name ∈ [State.policies, State.links])
    (hsame : State.Same d d' path name) (hothers : State.Others w.disk d path name)
    (hothers' : State.Others w'.disk d' path name) :
    Twins path { w with disk := d } { w' with disk := d' } := by
  have hkeep : ∀ other ∈ [State.policies, State.links], State.Same d d' path other := by
    intro other hother
    by_cases heq : other = name
    · rwa [heq]
    · exact (h.same hother).of_others hothers hothers' (Or.inl ⟨rfl, heq⟩)
  obtain ⟨published, hmemory, hfile⟩ := h.published
  have hne : State.publications ≠ name := by
    rintro rfl
    revert hname
    decide
  refine { h with policies := ?_, links := ?_, published := ⟨published, hmemory, ?_⟩ }
  · exact hkeep _ (by simp)
  · exact hkeep _ (by simp)
  · exact State.Table.of_others hfile hothers' (Or.inl ⟨rfl, hne⟩)

theorem of_shelf (h : w.Twins path w') {shelf : List (String × Publication)}
    {log log' : List LogEntry} {published : String → Option Publication}
    (hmemory : Shelf.memory.Holds { w with shelf } published)
    (hfile : (Shelf.file path).Holds { w' with disk := d' } published)
    (hothers : State.Others w'.disk d' path State.publications) :
    Twins path { w with shelf, log } { w' with disk := d', log := log' } := by
  refine { h with policies := ?_, links := ?_, published := ⟨published, hmemory, hfile⟩ }
  · exact h.policies.of_others (State.Others.refl _ _ _) hothers (Or.inl ⟨rfl, by decide⟩)
  · exact h.links.of_others (State.Others.refl _ _ _) hothers (Or.inl ⟨rfl, by decide⟩)

end World.Twins

namespace State

variable {fields : Json.Fields}

theorem get_alike (hname : name ∈ [policies, links]) :
    (State.get path name key).Alike (Twins path) (fun _ => True) (State.get path name key) := by
  intro w w' h
  obtain ⟨records, hsection, hsection'⟩ := h.same hname
  exact ⟨_, w, w', hsection.get, hsection'.get, h, fun _ _ => trivial⟩

theorem put_alike (hname : name ∈ [policies, links]) :
    (State.put path name key v).Alike (Twins path) (fun _ => True)
      (State.put path name key v) := by
  intro w w' h
  obtain ⟨records, hsection, hsection'⟩ := h.same hname
  obtain ⟨d, hput, hnew, hothers⟩ := hsection.put key v
  obtain ⟨d', hput', hnew', hothers'⟩ := hsection'.put key v
  exact ⟨_, _, _, hput, hput', h.of_section hname ⟨_, hnew, hnew'⟩ hothers hothers',
    fun _ _ => trivial⟩

theorem delete_alike (hname : name ∈ [policies, links]) :
    (State.delete path name key).Alike (Twins path) (fun _ => True)
      (State.delete path name key) := by
  intro w w' h
  obtain ⟨records, hsection, hsection'⟩ := h.same hname
  obtain ⟨d, hdelete, hnew, hothers⟩ := hsection.delete key
  obtain ⟨d', hdelete', hnew', hothers'⟩ := hsection'.delete key
  exact ⟨_, _, _, hdelete, hdelete', h.of_section hname ⟨_, hnew, hnew'⟩ hothers hothers',
    fun _ _ => trivial⟩

theorem values_alike (hname : name ∈ [policies, links]) :
    (State.values path name).Alike (Twins path) (fun _ => True) (State.values path name) := by
  intro w w' h
  obtain ⟨records, hsection, hsection'⟩ := h.same hname
  exact ⟨_, w, w', hsection.values, hsection'.values, h, fun _ _ => trivial⟩

end State

namespace Shelf

variable {published : String → Option Publication}

theorem get?_alike : (memory.get? child).Alike (Twins path) (fun _ => True)
    ((file path).get? child) := by
  refine .bind (.lift _ fun _ _ => trivial) fun key _ w w' h => ?_
  obtain ⟨published, hmemory, hfile⟩ := h.published
  exact ⟨_, w, w', hmemory.entry key, hfile.entry key, h, fun _ _ => trivial⟩

theorem require_alike : (memory.require child).Alike (Twins path) (fun _ => True)
    ((file path).require child) := by
  refine .bind get?_alike fun found _ => ?_
  split
  · exact .pure trivial
  · exact .throw _

theorem put_alike (hpub : pub.document.WellFormed) :
    (memory.put child pub).Alike (Twins path) (fun _ => True) ((file path).put child pub) := by
  refine .bind (.lift _ fun _ _ => trivial) fun key _ w w' h => ?_
  obtain ⟨published, hmemory, hfile⟩ := h.published
  obtain ⟨d, hput, htable, hedited⟩ := State.Table.put hfile key (v := pub.toJson) nofun
    (Publication.ofJson_toJson hpub)
  have hperform := (perform_bind_of_ok hput (f := fun _ => Step.log .info logger
    ("stored policy for " ++ Address.short key ++ " in " ++ path))).trans perform_log
  exact ⟨_, _, _, rfl, hperform,
    h.of_shelf (holds_memory_put hmemory key pub) htable hedited.others, fun _ _ => trivial⟩

theorem remove_alike : (memory.remove child).Alike (Twins path) (fun _ => True)
    ((file path).remove child) := by
  refine .bind (.lift _ fun _ _ => trivial) fun key _ w w' h => ?_
  obtain ⟨published, hmemory, hfile⟩ := h.published
  obtain ⟨d, found, hdelete, htable, hedited⟩ := State.Table.delete hfile key
  refine ⟨_, _, { w' with disk := d }, rfl, ?_,
    h.of_shelf (holds_memory_remove hmemory key) htable hedited.others, fun _ _ => trivial⟩
  simp [hdelete, Except.map]

end Shelf

end Allowance
