import Allowance.Proofs.World.State
import Mathlib

/-! # The state file and its history

What a state file answers is told by what it was asked before. Under a key stands what was last put
there and not deleted since. The keys of a section are listed in the order in which they came in:
one that is put again keeps its place, and one that was deleted in between goes to the end. Nothing
that is done to other keys and other sections matters.
-/

namespace Allowance

open Checked

namespace Json.Fields

variable {fields others : Fields} {name : String} {v : Json}

theorem lookup_isSome_iff : (fields.lookup name).isSome ↔ name ∈ fields.map Prod.fst := by
  induction fields with
  | nil => simp
  | cons field fields ih =>
    rw [lookup_cons_if, List.map_cons, List.mem_cons]
    split
    · simp_all
    · rename_i hname
      rw [ih, or_iff_right hname]

/-- A new name comes last, and any other keeps its place. -/
theorem names_put : (fields.put name v).map Prod.fst =
    if name ∈ fields.map Prod.fst then fields.map Prod.fst
    else fields.map Prod.fst ++ [name] := by
  induction fields with
  | nil => rfl
  | cons field fields ih =>
    obtain ⟨other, old⟩ := field
    rw [put]
    by_cases hother : other = name
    · simp [hother]
    · rw [if_neg hother, List.map_cons, ih]
      split <;> simp_all [Ne.symm hother]

theorem names_erase : (Fields.erase fields name).map Prod.fst =
    (fields.map Prod.fst).filter (· != name) := by
  rw [List.filter_map]
  rfl

theorem eq_of_lookup (hnames : fields.map Prod.fst = others.map Prod.fst)
    (hnodup : (fields.map Prod.fst).Nodup)
    (hlookup : ∀ name ∈ fields.map Prod.fst, fields.lookup name = others.lookup name) :
    fields = others := by
  induction fields generalizing others with
  | nil => exact (List.map_eq_nil_iff.mp hnames.symm).symm
  | cons field fields ih =>
    cases others with
    | nil => cases hnames
    | cons other others =>
      obtain ⟨name, v⟩ := field
      obtain ⟨_, u⟩ := other
      obtain ⟨rfl, hrest⟩ := List.cons.inj hnames
      obtain ⟨hnew, hnodup⟩ := List.nodup_cons.mp hnodup
      have hv : v = u := by simpa using hlookup name List.mem_cons_self
      have hfields : fields = others := by
        refine ih hrest hnodup fun key hkey => ?_
        have hne : key ≠ name := fun h => hnew (h ▸ hkey)
        simpa [lookup_cons_if, hne] using hlookup key (List.mem_cons_of_mem _ hkey)
      rw [hv, hfields]

end Json.Fields

namespace State

/-- What the state file can be asked for. To open it anew is a command too. -/
inductive Command
  | load
  | get (name key : String)
  | put (name key : String) (record : Json)
  | delete (name key : String)
  | values (name : String)
  | reopen

inductive Answer
  | done
  | state (fields : Json.Fields)
  | record (v : Json)
  | deleted (found : Bool)
  | records (vs : List Json)

/-- A command as a step. A store is nothing but the path of its file, so one that is opened anew on
the same path is the same store. -/
def serve (path : String) : Command → Step Answer
  | .load => .state <$> load path
  | .get name key => .record <$> State.get path name key
  | .put name key record => (fun _ => .done) <$> State.put path name key record
  | .delete name key => .deleted <$> State.delete path name key
  | .values name => .records <$> State.values path name
  | .reopen => pure .done

def session (path : String) (commands : List Command) : Step (List Answer) :=
  commands.mapM (serve path)

def Command.leaves (name key : String) (found : Option Json) : Command → Option Json
  | .put name' key' record => if name' = name ∧ key' = key then some record else found
  | .delete name' key' => if name' = name ∧ key' = key then none else found
  | _ => found

/-- What was last put under a key and not deleted since. -/
def held (history : List Command) (name key : String) : Option Json :=
  history.foldl (fun found command => command.leaves name key found) none

/-- There was a moment when the one key had come in and the other had not, and the one key has been
there ever since. -/
def CameFirst (history : List Command) (name key other : String) : Prop :=
  ∃ earlier, earlier <+: history ∧ held earlier name other = none ∧
    ∀ past, earlier <+: past → past <+: history → (held past name key).isSome

/-- The entries of a section after a history: under each key what is held there, and the keys in the
order in which they came in. -/
structure Lists (history : List Command) (name : String) (entries : Json.Fields) : Prop where
  lookup : ∀ key, entries.lookup key = held history name key
  ordered : (entries.map Prod.fst).Pairwise (CameFirst history name)

def Command.section? : Command → Option String
  | .put name _ _ => some name
  | _ => none

/-- The sections after a history: those that are always there, and then those that something was put
into, in the order of the first time. -/
def sectionNames (history : List Command) : List String :=
  (sections ++ history.filterMap Command.section?).eraseDups

structure Shows (history : List Command) (state : Json.Fields) : Prop where
  names : state.map Prod.fst = sectionNames history
  entries : ∀ name, ∃ entries, sectionOf state name = .object entries ∧ Lists history name entries

inductive Answers (history : List Command) : Command → Answer → Prop
  | load {state : Json.Fields} (h : Shows history state) : Answers history .load (.state state)
  | get (name key : String) :
      Answers history (.get name key) (.record ((held history name key).getD .null))
  | put (name key : String) (record : Json) : Answers history (.put name key record) .done
  | delete (name key : String) :
      Answers history (.delete name key) (.deleted (held history name key).isSome)
  | values {name : String} {entries : Json.Fields} (h : Lists history name entries) :
      Answers history (.values name) (.records (entries.map Prod.snd))
  | reopen : Answers history .reopen .done

inductive Answered : List Command → List Command → List Answer → Prop
  | nil {history : List Command} : Answered history [] []
  | cons {history rest : List Command} {command : Command} {answer : Answer}
      {answers : List Answer} (first : Answers history command answer)
      (others : Answered (history ++ [command]) rest answers) :
      Answered history (command :: rest) (answer :: answers)

/-- The command has nothing to change after a history: it only looks, or what it is to delete is not
there. -/
def Command.Idle (history : List Command) : Command → Prop
  | .put .. => False
  | .delete name key => held history name key = none
  | _ => True

variable {history : List Command} {command : Command} {name key other : String} {v : Json}
  {state entries records : Json.Fields} {w : World} {path : String}

section Held

@[simp] theorem held_concat : held (history ++ [command]) name key =
    command.leaves name key (held history name key) := by
  rw [held, List.foldl_append]
  rfl

theorem held_of_idle (h : command.Idle history) :
    held (history ++ [command]) name key = held history name key := by
  rw [held_concat]
  cases command with
  | put => exact h.elim
  | delete name' key' =>
    simp only [Command.leaves]
    split
    · rename_i hkey
      obtain ⟨rfl, rfl⟩ := hkey
      exact h.symm
    · rfl
  | _ => rfl

end Held

section Order

theorem cameFirst_of_none (hkey : (held history name key).isSome)
    (hother : held history name other = none) : CameFirst history name key other := by
  refine ⟨history, List.prefix_rfl, hother, fun past hpast hpast' => ?_⟩
  rwa [hpast'.eq_of_length_le hpast.length_le]

theorem CameFirst.concat (h : CameFirst history name key other)
    (hkey : (held (history ++ [command]) name key).isSome) :
    CameFirst (history ++ [command]) name key other := by
  obtain ⟨earlier, hearlier, hother, hsince⟩ := h
  refine ⟨earlier, hearlier.trans (List.prefix_append _ _), hother, fun past hpast hpast' => ?_⟩
  rcases List.prefix_concat_iff.mp hpast' with rfl | hpast'
  · exact hkey
  · exact hsince past hpast hpast'

theorem CameFirst.asymm (h : CameFirst history name key other) :
    ¬ CameFirst history name other key := by
  rintro ⟨later, hlater, hnone, hsince⟩
  obtain ⟨earlier, hearlier, hnone', hsince'⟩ := h
  -- At the later of the two moments the key that has been there since the earlier one is there.
  rcases List.prefix_or_prefix_of_prefix hearlier hlater with hle | hle
  · have hsome := hsince' later hle hlater
    simp [hnone] at hsome
  · have hsome := hsince earlier hle hearlier
    simp [hnone'] at hsome

instance : Std.Asymm (CameFirst history name) := ⟨fun _ _ => CameFirst.asymm⟩

end Order

section Lists

theorem Lists.ordered_concat {keys : List String} (h : Lists history name entries)
    (hkeys : keys.Sublist (entries.map Prod.fst))
    (hheld : ∀ key ∈ keys, (held (history ++ [command]) name key).isSome) :
    keys.Pairwise (CameFirst (history ++ [command]) name) :=
  (h.ordered.sublist hkeys).imp_of_mem fun hkey _ hfirst => hfirst.concat (hheld _ hkey)

theorem Lists.mem_names_iff (h : Lists history name entries) :
    key ∈ entries.map Prod.fst ↔ (held history name key).isSome := by
  rw [← h.lookup, Json.Fields.lookup_isSome_iff]

theorem Lists.nodup (h : Lists history name entries) : (entries.map Prod.fst).Nodup :=
  h.ordered.imp fun {_ _} hfirst heq => absurd (heq ▸ hfirst) (Std.Irrefl.irrefl _)

theorem lists_nil : Lists [] name [] := ⟨fun _ => rfl, .nil⟩

/-- What is held and in which order it came in leaves nothing open about the entries. -/
theorem Lists.unique {others : Json.Fields} (h : Lists history name entries)
    (h' : Lists history name others) : entries = others := by
  have hnames : entries.map Prod.fst = others.map Prod.fst :=
    h.ordered.eq_of_mem_iff h'.ordered fun key => by rw [h.mem_names_iff, h'.mem_names_iff]
  refine Json.Fields.eq_of_lookup hnames h.nodup fun key _ => ?_
  rw [h.lookup, h'.lookup]

theorem Lists.aside (h : Lists history name entries)
    (hheld : ∀ key, held (history ++ [command]) name key = held history name key) :
    Lists (history ++ [command]) name entries := by
  refine ⟨fun key => by rw [h.lookup, hheld], h.ordered_concat (.refl _) fun key hkey => ?_⟩
  rwa [hheld, ← h.mem_names_iff]

/-- A key that is put again keeps its place, and a new one goes to the end. -/
theorem Lists.put (h : Lists history name entries) :
    Lists (history ++ [.put name key v]) name (entries.put key v) := by
  have hheld (other : String) : held (history ++ [.put name key v]) name other =
      if other = key then some v else held history name other := by
    simp [Command.leaves, eq_comm]
  have hkept (other : String) (hother : other ∈ entries.map Prod.fst) :
      (held (history ++ [.put name key v]) name other).isSome := by
    rw [hheld]
    split
    · rfl
    · exact h.mem_names_iff.mp hother
  refine ⟨fun other => by rw [Json.Fields.lookup_put, h.lookup, hheld], ?_⟩
  rw [Json.Fields.names_put]
  split
  case isTrue => exact h.ordered_concat (.refl _) hkept
  case isFalse hnew =>
    rw [h.mem_names_iff, Option.not_isSome_iff_eq_none] at hnew
    have hlast : ∀ other ∈ entries.map Prod.fst,
        CameFirst (history ++ [.put name key v]) name other key := fun other hother =>
      (cameFirst_of_none (h.mem_names_iff.mp hother) hnew).concat (hkept other hother)
    refine List.pairwise_append.mpr
      ⟨h.ordered_concat (.refl _) hkept, List.pairwise_singleton _ _, ?_⟩
    simpa using hlast

theorem Lists.delete (h : Lists history name entries) :
    Lists (history ++ [.delete name key]) name (Json.Fields.erase entries key) := by
  have hheld (other : String) : held (history ++ [.delete name key]) name other =
      if other = key then none else held history name other := by
    simp [Command.leaves, eq_comm]
  refine ⟨fun other => by rw [Json.Fields.lookup_erase, h.lookup, hheld], ?_⟩
  rw [Json.Fields.names_erase]
  refine h.ordered_concat List.filter_sublist fun other hother => ?_
  obtain ⟨hmem, hne⟩ := List.mem_filter.mp hother
  rw [hheld, if_neg (by simpa using hne)]
  exact h.mem_names_iff.mp hmem

end Lists

section Shows

theorem mem_sectionNames : name ∈ sectionNames history ↔
    name ∈ sections ++ history.filterMap Command.section? :=
  List.mem_eraseDups

theorem sectionNames_concat : sectionNames (history ++ [command]) =
    match command.section? with
    | some name =>
      if name ∈ sectionNames history then sectionNames history else sectionNames history ++ [name]
    | none => sectionNames history := by
  cases hcommand : command.section? with
  | none => simp [sectionNames, hcommand]
  | some name =>
    have hnew : [name].removeAll (sections ++ history.filterMap Command.section?) =
        if name ∈ sectionNames history then [] else [name] := by
      simp only [List.removeAll, List.filter_cons, List.filter_nil, mem_sectionNames]
      split <;> simp_all
    rw [sectionNames, List.filterMap_append, ← List.append_assoc, List.eraseDups_append,
      ← sectionNames]
    simp only [List.filterMap_cons, hcommand, List.filterMap_nil, hnew]
    split <;> simp [List.eraseDups_cons]

theorem nodup_sectionNames (history : List Command) : (sectionNames history).Nodup := by
  induction history using List.reverseRecOn with
  | nil => decide
  | append_singleton history command ih =>
    rw [sectionNames_concat]
    split
    · split
      · exact ih
      · rename_i hnew
        exact List.nodup_append.mpr ⟨ih, List.nodup_singleton _, by
          rintro a ha b hb rfl
          exact hnew (List.mem_singleton.mp hb ▸ ha)⟩
    · exact ih

theorem sectionOf_put : sectionOf (state.put name v) other =
    if other = name then v else sectionOf state other := by
  rw [sectionOf, Json.Fields.lookup_put]
  split <;> rfl

theorem Shows.lookup_isSome_iff (h : Shows history state) :
    (state.lookup name).isSome ↔ name ∈ sectionNames history := by
  rw [Json.Fields.lookup_isSome_iff, h.names]

theorem Shows.withSections (h : Shows history state) : withSections state = state := by
  have hknown : ∀ name ∈ sections, (state.lookup name).isSome := fun name hname =>
    h.lookup_isSome_iff.mpr (mem_sectionNames.mpr (List.mem_append_left _ hname))
  rw [sections, List.forall_mem_cons, List.forall_mem_cons, List.forall_mem_cons] at hknown
  obtain ⟨hpolicies, hlinks, hpublications, -⟩ := hknown
  simp [State.withSections, sections, hpolicies, hlinks, hpublications]

theorem shows_nil : Shows [] (State.withSections []) := by
  refine ⟨rfl, fun name => ⟨[], ?_, lists_nil⟩⟩
  rw [sectionOf_withSections]
  rfl

/-- The history leaves nothing open about the state. -/
theorem Shows.unique {state' : Json.Fields} (h : Shows history state)
    (h' : Shows history state') : state = state' := by
  refine Json.Fields.eq_of_lookup (h.names.trans h'.names.symm)
    (h.names ▸ nodup_sectionNames history) fun name hname => ?_
  rw [h.names] at hname
  obtain ⟨v, hv⟩ := Option.isSome_iff_exists.mp (h.lookup_isSome_iff.mpr hname)
  obtain ⟨u, hu⟩ := Option.isSome_iff_exists.mp (h'.lookup_isSome_iff.mpr hname)
  obtain ⟨entries, hentries, hlists⟩ := h.entries name
  obtain ⟨others, hothers, hlists'⟩ := h'.entries name
  simp only [sectionOf, hv, hu, Option.getD_some] at hentries hothers
  rw [hv, hu, hentries, hothers, hlists.unique hlists']

theorem Shows.idle (h : Shows history state) (hidle : command.Idle history) :
    Shows (history ++ [command]) state := by
  refine ⟨?_, fun name => ?_⟩
  · rw [h.names, sectionNames_concat]
    cases command with
    | put => exact hidle.elim
    | _ => rfl
  · obtain ⟨entries, hentries, hlists⟩ := h.entries name
    exact ⟨entries, hentries, hlists.aside fun key => held_of_idle hidle⟩

theorem Shows.change (h : Shows history state) (hlists : Lists (history ++ [command]) name records)
    (hnames : sectionNames (history ++ [command]) =
      if name ∈ sectionNames history then sectionNames history else sectionNames history ++ [name])
    (haside : ∀ other, other ≠ name → ∀ key,
      held (history ++ [command]) other key = held history other key) :
    Shows (history ++ [command]) (state.put name (.object records)) := by
  refine ⟨?_, fun other => ?_⟩
  · rw [Json.Fields.names_put, h.names, hnames]
  · rw [sectionOf_put]
    split
    · rename_i hother
      exact ⟨records, rfl, hother ▸ hlists⟩
    · rename_i hother
      obtain ⟨entries, hentries, hlists⟩ := h.entries other
      exact ⟨entries, hentries, hlists.aside (haside other hother)⟩

theorem Shows.put (h : Shows history state) (hrecords : sectionOf state name = .object records)
    (key : String) (v : Json) : Shows (history ++ [.put name key v])
      (state.put name (.object (Json.Fields.put records key v))) := by
  obtain ⟨entries, hentries, hlists⟩ := h.entries name
  obtain rfl := Json.object.inj (hrecords.symm.trans hentries)
  refine h.change hlists.put sectionNames_concat fun other hother key' => ?_
  simp [Command.leaves, Ne.symm hother]

theorem Shows.delete (h : Shows history state) (hrecords : sectionOf state name = .object records)
    (hkey : records.lookup key = some v) : Shows (history ++ [.delete name key])
      (state.put name (.object (Json.Fields.erase records key))) := by
  obtain ⟨entries, hentries, hlists⟩ := h.entries name
  obtain rfl := Json.object.inj (hrecords.symm.trans hentries)
  have hname : name ∈ sectionNames history := by
    rw [← h.lookup_isSome_iff]
    by_contra hnone
    rw [sectionOf, Option.not_isSome_iff_eq_none.mp hnone] at hrecords
    obtain rfl := Json.object.inj hrecords
    cases hkey
  refine h.change hlists.delete ?_ fun other hother key' => ?_
  · rw [if_pos hname, sectionNames_concat]
    rfl
  · simp [Command.leaves, Ne.symm hother]

end Shows

section Recalls

def Recalls (d : Disk) (path : String) (history : List Command) : Prop :=
  ∃ state, d.state? path = .ok state ∧ Shows history state

theorem recalls_of_absent {d : Disk} (h : d.open? path = .ok none) : Recalls d path [] := by
  refine ⟨_, ?_, shows_nil⟩
  rw [Disk.state?, h]
  rfl

theorem recalls_write {d : Disk} (h : Shows history state) :
    Recalls (d.write path (.state (.object state))) path history := by
  refine ⟨state, ?_, h⟩
  rw [Disk.state?_write, h.withSections]

/-- A command is answered from the history, is added to it, and changes nothing if it is idle. -/
theorem Recalls.serve (h : Recalls w.disk path history) (command : Command) :
    ∃ answer w', (serve path command).perform w = (.ok answer, w') ∧
      Answers history command answer ∧ Recalls w'.disk path (history ++ [command]) ∧
      (command.Idle history → w' = w) := by
  obtain ⟨state, hstate, hshows⟩ := h
  cases command with
  | load =>
    refine ⟨.state state, w, ?_, .load hshows, ⟨state, hstate, hshows.idle trivial⟩, fun _ => rfl⟩
    simp [State.serve, hstate, Except.map]
  | get name key =>
    obtain ⟨entries, hentries, hlists⟩ := hshows.entries name
    refine ⟨_, w, ?_, .get name key, ⟨state, hstate, hshows.idle trivial⟩, fun _ => rfl⟩
    simp [State.serve, perform_get, hstate, hentries, Json.field, hlists.lookup, Except.map]
  | put name key v =>
    obtain ⟨entries, hentries, hlists⟩ := hshows.entries name
    refine ⟨.done, { w with disk := w.disk.write path _ }, ?_, .put name key v,
      recalls_write (hshows.put hentries key v), False.elim⟩
    rw [State.serve, Step.perform_map, perform_put hstate hentries]
    rfl
  | delete name key =>
    obtain ⟨entries, hentries, hlists⟩ := hshows.entries name
    have hkey := hlists.lookup key
    cases hheld : held history name key with
    | none =>
      rw [hheld] at hkey
      refine ⟨_, w, ?_, .delete name key, ⟨state, hstate, hshows.idle hheld⟩, fun _ => rfl⟩
      simp [State.serve, perform_delete_of_none hstate hentries hkey, hheld, Except.map]
    | some v =>
      rw [hheld] at hkey
      refine ⟨_, { w with disk := w.disk.write path _ }, ?_, .delete name key,
        recalls_write (hshows.delete hentries hkey), fun hidle => ?_⟩
      · rw [State.serve, Step.perform_map, perform_delete_of_some hstate hentries hkey, hheld]
        rfl
      · cases hheld.symm.trans hidle
  | values name =>
    obtain ⟨entries, hentries, hlists⟩ := hshows.entries name
    refine ⟨_, w, ?_, .values hlists, ⟨state, hstate, hshows.idle trivial⟩, fun _ => rfl⟩
    simp [State.serve, perform_values hstate hentries, Except.map]
  | reopen =>
    exact ⟨.done, w, rfl, .reopen, ⟨state, hstate, hshows.idle trivial⟩, fun _ => rfl⟩

theorem Recalls.session (h : Recalls w.disk path history) (commands : List Command) :
    ∃ answers w', (session path commands).perform w = (.ok answers, w') ∧
      Answered history commands answers ∧ Recalls w'.disk path (history ++ commands) := by
  -- Each command joins the history that the next ones are answered from.
  induction commands generalizing w history with
  | nil => exact ⟨[], w, rfl, .nil, by rwa [List.append_nil]⟩
  | cons command commands ih =>
    obtain ⟨answer, u, hserve, hanswer, hrecalls, -⟩ := h.serve command
    obtain ⟨answers, w', hsession, hanswered, hrecalls'⟩ := ih hrecalls
    refine ⟨answer :: answers, w', ?_, .cons hanswer hanswered, ?_⟩
    · rw [State.session] at hsession
      simp [State.session, List.mapM_cons, Step.perform_bind, hserve, hsession]
    · rwa [List.append_assoc, List.singleton_append] at hrecalls'

theorem Answers.unique {answer answer' : Answer} (h : Answers history command answer)
    (h' : Answers history command answer') : answer = answer' := by
  cases h with
  | load hshows =>
    cases h' with
    | load hshows' => rw [hshows.unique hshows']
  | values hlists =>
    cases h' with
    | values hlists' => rw [hlists.unique hlists']
  | _ =>
    cases h'
    rfl

theorem Answered.unique {commands : List Command} {answers answers' : List Answer}
    (h : Answered history commands answers) (h' : Answered history commands answers') :
    answers = answers' := by
  induction h generalizing answers' with
  | nil =>
    cases h'
    rfl
  | cons first _ ih =>
    cases h' with
    | cons first' others' => rw [first.unique first', ih others']

/-- From a missing file on, the state file answers every sequence of commands as its history tells,
and in no other way. After any of them a command that has nothing to change leaves everything as it
is. -/
theorem session_answered (habsent : w.disk.open? path = .ok none) (commands : List Command) :
    ∃ answers w', (session path commands).perform w = (.ok answers, w') ∧
      (∀ expected, Answered [] commands expected ↔ expected = answers) ∧
      ∀ command : Command, command.Idle commands → ((serve path command).perform w').2 = w' := by
  obtain ⟨answers, w', hsession, hanswered, hrecalls⟩ :=
    (recalls_of_absent habsent).session commands
  refine ⟨answers, w', hsession, fun expected => ?_, fun command hidle => ?_⟩
  · constructor
    · exact fun hexpected => hexpected.unique hanswered
    · rintro rfl
      exact hanswered
  · obtain ⟨answer, u, hserve, -, -, hkept⟩ := hrecalls.serve command
    rw [hserve]
    exact hkept hidle

def clean : World where
  sources := ⟨fun _ => 0, fun _ => "", fun _ => .badUrl, fun _ => .failure ""⟩

/-- A key is put again, another is deleted twice and put again, and a section of its own is made. -/
def chores : List Command := [
  .put "links" "mother" (.int 1), .put "links" "daughter" (.int 2), .put "notes" "mother" (.int 3),
  .put "links" "mother" (.int 4), .values "links", .delete "links" "mother", .reopen,
  .delete "links" "mother", .put "links" "mother" (.int 5), .values "links", .get "notes" "mother",
  .load]

def choresAnswers : List Answer := [
  .done, .done, .done, .done, .records [.int 4, .int 2], .deleted true, .done, .deleted false,
  .done, .records [.int 2, .int 5], .record (.int 3),
  .state [("policies", .object []), ("links", .object [("daughter", .int 2), ("mother", .int 5)]),
    ("wallet_policies", .object []), ("notes", .object [("mother", .int 3)])]]

theorem chores_answered : clean.disk.open? "s" = .ok none ∧
    ∃ w', (session "s" chores).perform clean = (.ok choresAnswers, w') ∧
      (∀ expected, Answered [] chores expected ↔ expected = choresAnswers) ∧
      ∀ command : Command, command.Idle chores →
        ((serve "s" command).perform w').2 = w' := by
  have habsent : clean.disk.open? "s" = .ok none := by cbv
  have hrun : ((session "s" chores).perform clean).1 = .ok choresAnswers := by cbv
  obtain ⟨answers, w', hsession, hanswered⟩ := session_answered habsent chores
  rw [hsession] at hrun
  obtain rfl := Except.ok.inj hrun
  exact ⟨habsent, w', hsession, hanswered⟩

end Recalls

end State

end Allowance
