import Allowance.Proofs.Registry.ReadBack
import Allowance.Proofs.Settings.Relisting

/-! # Toggles combine as exclusive or

A stored policy compiles again with whatever actions it blocks, so toggling an action fails only if
the action is denied in any case. Along a course that changes the policy by toggles alone, an action
is blocked in the end if it was blocked at first and toggled an even number of times, or was not and
was toggled an odd number of times. So the order of the toggles does not matter, and toggles that
cancel each other out restore the policy.
-/

namespace Allowance

open Checked

namespace BlockedEntry

variable {entries : List BlockedEntry} {a b : Action}

theorem mem_toggle : .action b ∈ toggle entries a ↔ Xor (.action b ∈ entries) (b = a) := by
  unfold toggle
  split
  next ha =>
    rw [holds_iff] at ha
    by_cases hb : b = a
    · simp [hb, ha, action?]
    · simp [hb, action?, xor_def]
  next ha =>
    rw [holds_iff] at ha
    by_cases hb : b = a
    · simp [hb, ha]
    · simp [hb, xor_def]

end BlockedEntry

namespace PolicyRecord

variable {o p q : PolicyRecord} {f g : Action → Prop}

/-- A record is about the same policy on the same terms, but for what it blocks. -/
def Continues (q p : PolicyRecord) : Prop :=
  q.Agrees { p with
    child := q.child
    blockedActions := q.blockedActions
    document := q.document
    updatedAt := q.updatedAt }

theorem Agrees.continues {child updatedAt : Json} {blockedActions : List BlockedEntry}
    {document : Option Document}
    (h : q.Agrees { p with child, blockedActions, document, updatedAt }) : q.Continues p :=
  { h with child := rfl, blockedActions := fun _ => .rfl, document := rfl, updatedAt := rfl }

theorem Continues.refl (p : PolicyRecord) : p.Continues p := Agrees.refl p

theorem Continues.symm (h : q.Continues p) : p.Continues q :=
  { Agrees.symm h with
    child := rfl, blockedActions := fun _ => .rfl, document := rfl, updatedAt := rfl }

theorem Continues.trans (h : o.Continues q) (h' : q.Continues p) : o.Continues p :=
  Agrees.trans h { h' with
    child := rfl, blockedActions := fun _ => .rfl, document := rfl, updatedAt := rfl }

def BlocksMandatory (p : PolicyRecord) : Prop :=
  ∀ a ∈ Action.mandatory, .action a ∈ p.blockedActions

def ListsChains (p : PolicyRecord) : Prop :=
  ∀ d, p.document = some d → Chain.listed d.allowedChains = .ok d.allowedChains

/-- A record continues another with some actions flipped: blocked if they were not, and the other
way round. The mandatory actions are blocked whether they are flipped or not. -/
structure Flips (q : PolicyRecord) (flipped : Action → Prop) (p : PolicyRecord) : Prop where
  continues : q.Continues p
  blockedActions : ∀ a, .action a ∈ q.blockedActions ↔
    a ∈ Action.mandatory ∨ Xor (.action a ∈ p.blockedActions) (flipped a)

namespace Flips

theorem of_same (h : q.Continues p) (hp : p.BlocksMandatory)
    (hsame : ∀ a, .action a ∈ q.blockedActions ↔ .action a ∈ p.blockedActions) :
    q.Flips (fun _ => False) p := by
  constructor
  · exact h
  · intro a
    simpa [hsame, xor_def] using hp a

/-- Flipping actions and then others flips those that are flipped once. -/
theorem trans (h : o.Flips f q) (h' : q.Flips g p) : o.Flips (fun a => Xor (g a) (f a)) p := by
  constructor
  · exact h.continues.trans h'.continues
  · intro a
    rw [h.blockedActions, h'.blockedActions]
    by_cases ha : a ∈ Action.mandatory
    · simp [ha]
    · simp only [ha, false_or]
      grind

theorem symm (h : q.Flips f p) (hp : p.BlocksMandatory) : p.Flips f q := by
  constructor
  · exact h.continues.symm
  · intro a
    rw [h.blockedActions]
    by_cases ha : a ∈ Action.mandatory
    · simp [ha, hp a ha]
    · simp only [ha, false_or]
      grind

theorem congr (h : q.Flips f p) (hfg : ∀ a, a ∉ Action.mandatory → (f a ↔ g a)) : q.Flips g p := by
  constructor
  · exact h.continues
  · intro a
    rw [h.blockedActions]
    by_cases ha : a ∈ Action.mandatory
    · simp [ha]
    · rw [hfg a ha]

end Flips

/-- A record blocks the same actions as another, and its document decides every request as the
other's does. The documents are the same unless there are chains that are tied. -/
structure Restores (q p : PolicyRecord) : Prop where
  continues : q.Continues p
  blockedActions : ∀ a, .action a ∈ q.blockedActions ↔ .action a ∈ p.blockedActions
  document : ∃ d e, q.document = some d ∧ p.document = some e ∧
    (∀ tx now, (d.evaluate tx now).Matches (e.evaluate tx now)) ∧
    (Options.Untied e.allowedChains → d = e)

theorem Flips.restores {r : Registry} {id : String} (h : q.Flips f p)
    (hf : ∀ a, a ∉ Action.mandatory → ¬ f a) (hmandatory : p.BlocksMandatory) (hp : p.Sound r id)
    (hq : q.Sound r id) (hlists : p.ListsChains) (hlists' : q.ListsChains) : q.Restores p := by
  have hsame (a : Action) : .action a ∈ q.blockedActions ↔ .action a ∈ p.blockedActions := by
    rw [h.blockedActions]
    by_cases ha : a ∈ Action.mandatory
    · simp [ha, hmandatory a ha]
    · simp [ha, hf a ha, xor_def]
  have hagrees : q.Agrees { p with
      child := q.child, document := q.document, updatedAt := q.updatedAt } :=
    { h.continues with blockedActions := hsame }
  obtain ⟨s, cs, hcheck, hcs, hdocument⟩ := hp.compiled
  obtain ⟨s', cs', hcheck', hcs', hdocument'⟩ := hq.compiled
  obtain ⟨listed, hlisted, hrechecked⟩ := (hagrees.options hp.storable.chains).check hcheck
  obtain rfl := Except.ok.inj (hrechecked.symm.trans hcheck')
  have hperm : cs'.Perm cs := (hcs'.trans hlisted).trans hcs.symm
  obtain ⟨-, -, -, hchains, -⟩ := Options.check_eq_ok.mp hcheck
  obtain ⟨hnodup, hids⟩ := Options.chains_nodup hchains
  have hcsnodup : cs.Nodup := hcs.nodup_iff.mpr hnodup
  have hallowed := Settings.allowedChains_document (s := { s with chains := cs }) hcsnodup r.partner
  have hallowed' := Settings.allowedChains_document (s := { s with chains := cs' })
    (hperm.nodup_iff.mpr hcsnodup) r.partner
  refine ⟨h.continues, hsame, _, _, hdocument', hdocument, ?_, ?_⟩
  · exact Settings.evaluate_relisted (s := { s with chains := cs }) hcsnodup hperm r.partner
  · intro huntied
    have hlist := hlists _ hdocument
    have hlist' := hlists' _ hdocument'
    rw [hallowed] at huntied hlist
    rw [hallowed'] at hlist'
    obtain rfl := Options.eq_of_listed (fun id hid => hids id (hcs.mem_iff.mp hid)) huntied
      hperm.symm hlist hlist'
    rfl

end PolicyRecord

def Operation.toggled? (id : String) : Operation → Option Action
  | .toggle (.string key) (.action a) => if key = id then some a else none
  | _ => none

def toggled (id : String) (ops : List Operation) : List Action :=
  ops.filterMap (Operation.toggled? id)

theorem toggled_concat (id : String) (ops : List Operation) (o : Operation) :
    toggled id (ops ++ [o]) = toggled id ops ++ (o.toggled? id).toList := by
  cases h : o.toggled? id <;> simp [toggled, h]

theorem Operation.toggled?_of_not_names {id : String} {o : Operation} (h : ¬ o.Names id) :
    o.toggled? id = none := by
  cases o with
  | toggle v entry =>
    unfold toggled?
    split
    · rename_i key a hv
      refine if_neg ?_
      rintro rfl
      cases hv
      exact h rfl
    · rfl
  | _ => rfl

namespace Registry

variable {r : Registry} {w w' : World} {t : Tables} {p q old changed : PolicyRecord} {id : String}
  {o : Operation} {ops : List Operation} {c : Changes} {a b : Action} {d : Document}

section Toggling

theorem exists_toggled (old : PolicyRecord) (a : Action) : ∃ blocked,
    (blocking (BlockedEntry.toggle old.blockedActions a)).apply old =
        .ok { old with blockedActions := blocked } ∧
      ∀ b, .action b ∈ blocked ↔
        b ∈ Action.mandatory ∨ Xor (.action b ∈ old.blockedActions) (b = a) := by
  obtain ⟨blocked, hblocked⟩ : ∃ blocked, PolicyRecord.blockedSet
    (.listed (BlockedEntry.toggle old.blockedActions a)) = .ok blocked := ⟨_, rfl⟩
  refine ⟨blocked, Changes.apply_eq_ok.mpr ⟨_, _, _, rfl, rfl, hblocked, rfl⟩, fun b => ?_⟩
  obtain ⟨_, hgiven, hmem⟩ := PolicyRecord.mem_blockedSet hblocked
  obtain rfl := Except.ok.inj hgiven
  rw [hmem, BlockedEntry.mem_toggle, or_comm]

theorem exists_compiled (h : p.CompiledBy r) (blocked : List BlockedEntry) :
    ∃ d, r.compile { p with blockedActions := blocked } = .ok d := by
  obtain ⟨s, _, hcheck, -⟩ := h
  obtain ⟨hlimit, haddresses, hwindow, hchains, -, hsigning⟩ := Options.check_eq_ok.mp hcheck
  refine ⟨_, Options.compile_eq_ok.mpr ⟨{ s with blocked := Options.extraBlocks blocked }, ?_, rfl⟩⟩
  exact Options.check_eq_ok.mpr
    ⟨hlimit, haddresses, hwindow, hchains, ⟨blocked, rfl, rfl⟩, hsigning⟩

theorem Holds.update_compiles (h : r.Holds w t) (hold : t.policy id = some old)
    (hfixed : c.fixed = []) (hc : c.compiledFields.isEmpty = false)
    (happly : c.apply old = .ok changed) (hcompile : r.compile changed = .ok d)
    (hsound : ∀ updatedAt, PolicyRecord.Sound r id { changed with document := some d, updatedAt }) :
    ∃ p w', (r.update (.string id) c).perform w = (.ok p, w') := by
  have hget : (r.get (.string id)).perform w = (.ok old, w) := by rw [h.get, hold]
  obtain ⟨_, _, _, hsave, -, -, hholds, -⟩ :=
    h.now.save_sound (hsound (.number (w.sources.time w.times)))
  obtain ⟨_, hpublish, -⟩ := hholds.publish (hsound (.number (w.sources.time w.times)))
  have hrecompile (u : World) (updatedAt : Json) :
      (r.recompile (.string id) c { changed with updatedAt }).perform u =
        (.ok { changed with document := some d, updatedAt }, u) := by
    have hcompile : r.compile { changed with updatedAt } = .ok d := hcompile
    rw [Registry.recompile, hc, if_neg Bool.false_ne_true, hcompile]
    rfl
  have hleads : (r.update (.string id) c).Leads w (fun _ _ => True) fun _ _ => False := by
    unfold Registry.update
    rw [hfixed, if_neg (by simp)]
    refine .bind (.of_ok hget (.bind (.of_ok (Step.perform_lift.trans (by rw [happly])) ?_)))
    refine .bind (.of_ok Step.perform_now (.bind (.of_ok (hrecompile ..) ?_)))
    refine .bind (.of_ok hsave (.bind (.of_ok hpublish ?_)))
    exact .bind (.of_ok Step.perform_log (.pure trivial))
  exact hleads.succeeds

theorem Holds.toggle_succeeds (h : r.Holds w t) (ht : t.Valid r) (hp : t.policy id = some p)
    (ha : a ∉ Action.mandatory) :
    ∃ q w', (r.toggle (.string id) (.action a)).perform w = (.ok q, w') := by
  have hsound := ht.sound id p hp
  have hget : (r.get (.string id)).perform w = (.ok p, w) := by rw [h.get, hp]
  obtain ⟨blocked, happly, -⟩ := exists_toggled p a
  obtain ⟨d, hcompile⟩ := exists_compiled hsound.compiled blocked
  have hcompiled := PolicyRecord.compiledBy_of_compile hcompile
  have hasks : Asks id p (.toggle (.string id) (.action a))
      (blocking (BlockedEntry.toggle p.blockedActions a)) := .toggle rfl
  have hregular := (hasks.regular ⟨a, rfl⟩ (h.regular hp)).apply happly (h.regular hp)
  obtain ⟨q, w', hupdate⟩ := h.update_compiles hp rfl rfl happly hcompile fun updatedAt =>
    { id := hsound.id
      storable := { hsound.storable with
        blocked := hregular.blockedActions
        document := hcompiled.document_wellFormed }
      compiled := hcompiled
      child := hsound.child }
  refine ⟨q, w', ?_⟩
  have hfree : (BlockedEntry.action a).mandatory? = none := by
    simp [BlockedEntry.mandatory?, BlockedEntry.action?, ha]
  rw [Registry.toggle, hfree]
  exact (Step.perform_bind_of_ok hget).trans hupdate

theorem toggle_refused (id : Json) (ha : a ∈ Action.mandatory) :
    (r.toggle id (.action a)).perform w = (.error (.options (.mandatoryAction a)), w) := by
  have hdenied : (BlockedEntry.action a).mandatory? = some a := by
    simp [BlockedEntry.mandatory?, BlockedEntry.action?, ha]
  rw [Registry.toggle, hdenied]
  rfl

end Toggling

section Course

open PolicyRecord (BlocksMandatory ListsChains)

theorem lasting_blocksMandatory : r.Lasting BlocksMandatory where
  drafted parent draft id p := by
    rintro ⟨_, blank, _, hblank, -, rfl⟩ a ha
    obtain ⟨_, _, _, -, -, hblocked, rfl⟩ := Draft.toRecord_eq_ok.mp hblank
    obtain ⟨_, -, hmem⟩ := PolicyRecord.mem_blockedSet hblocked
    exact (hmem a).mpr (Or.inr ha)
  changed c old p := by
    rintro ⟨⟨changed, _, _, happly, rfl⟩, -, -⟩ hold a ha
    obtain ⟨_, _, _, -, -, hblocked, rfl⟩ := Changes.apply_eq_ok.mp happly
    cases hb : c.blockedActions with
    | none =>
      obtain rfl := Changes.changed_of_none hblocked hb
      exact hold a ha
    | some b =>
      rw [hb] at hblocked
      obtain ⟨_, -, hmem⟩ := PolicyRecord.mem_blockedSet hblocked
      exact (hmem a).mpr (Or.inr ha)
  linked _ _ _ hp := hp
  stored q p hq hp a ha := (hq.blockedActions a).mpr (hp a ha)

theorem lasting_listsChains : r.Lasting ListsChains where
  drafted parent draft id p := by
    rintro ⟨_, blank, document, -, hdocument, rfl⟩ d ⟨⟩
    exact Options.listed_of_compile hdocument
  changed c old p hp hold d hd := by
    cases hc : c.compiledFields.isEmpty with
    | true => exact hold d ((hp.kept hc).symm.trans hd)
    | false =>
      obtain ⟨e, he, hdocument⟩ := hp.compiled hc
      obtain rfl := Option.some.inj (hdocument.symm.trans hd)
      exact Options.listed_of_compile he
  linked _ _ _ hp := hp
  stored q p hq hp d hd := hp d (hq.document.symm.trans hd)

def Toggles (id : String) : World → Operation → Prop :=
  fun _ o => o.Names id → ∃ a, o = .toggle (.string id) (.action a)

theorem Outcome.flips {answer : Answer} {policies policies' : String → Option PolicyRecord}
    (h : r.Outcome w policies (.toggle (.string id) (.action a)) answer policies')
    (hp : policies id = some p) : ∃ q, policies' id = some q ∧ q.Flips (fun b => b = a) p := by
  cases h with
  | @changed _ _ c old changed q hasks hold hchanged hq =>
    obtain ⟨⟩ | ⟨hblocked⟩ | ⟨⟩ := hasks
    obtain rfl := Except.ok.inj hblocked
    obtain rfl := Option.some.inj (hold.symm.trans hp)
    obtain ⟨blocked, happly, hblocked⟩ := exists_toggled old a
    obtain ⟨⟨_, _, _, happlied, rfl⟩, -, -⟩ := hchanged
    obtain rfl := Except.ok.inj (happly.symm.trans happlied)
    exact ⟨q, Function.update_self .., hq.continues,
      fun b => (hq.blockedActions b).trans (hblocked b)⟩

theorem Reachable.flips (h : r.Reachable w) (hfresh : r.FreshFor w o) (ho : Toggles id w o)
    (hp : r.Stores w id p) : ∃ q, r.Stores (r.after w o) id q ∧
      q.Flips (fun b => o.toggled? id = some b) p := by
  have hmandatory := h.lasting lasting_blocksMandatory id p hp
  by_cases hnames : o.Names id
  · obtain ⟨a, rfl⟩ := ho hnames
    have htoggled (b : Action) :
        (Operation.toggle (.string id) (.action a)).toggled? id = some b ↔ b = a := by
      simp [Operation.toggled?, eq_comm]
    simp only [htoggled]
    by_cases ha : a ∈ Action.mandatory
    · have hafter : r.after w (.toggle (.string id) (.action a)) = w :=
        congrArg Prod.snd (toggle_refused (.string id) ha)
      rw [hafter]
      refine ⟨p, hp, (PolicyRecord.Flips.of_same (.refl p) hmandatory fun _ => .rfl).congr ?_⟩
      rintro b hb
      refine iff_of_false not_false ?_
      rintro rfl
      exact hb ha
    · obtain ⟨t, t', hholds, ht, hholds', -, houtcome⟩ := h.after_cases hfresh
      have hpolicy := hholds.stores_iff.mp hp
      obtain ⟨answer, -, houtcome⟩ | ⟨e, he, -⟩ := houtcome
      · obtain ⟨q, hq, hflips⟩ := houtcome.flips hpolicy
        exact ⟨q, hholds'.stores_iff.mpr hq, hflips⟩
      · obtain ⟨q, w', htoggle⟩ := hholds.toggle_succeeds ht hpolicy ha
        simp [operate, htoggle, Except.map] at he
  · rw [Operation.toggled?_of_not_names hnames]
    simp only [reduceCtorEq]
    obtain hsame | ⟨_, _, q, _, -, -, hq, hstored⟩ := h.frame hfresh hp hnames
    · exact ⟨p, hsame, .of_same (.refl p) hmandatory fun _ => .rfl⟩
    · exact ⟨q, hstored, .of_same hq.agrees.continues hmandatory hq.agrees.blockedActions⟩

/-- Along a course the actions are flipped that are toggled an odd number of times. -/
theorem Course.flips (hc : r.Course (Toggles id) w ops w') (h : r.Reachable w)
    (hp : r.Stores w id p) : ∃ q, r.Stores w' id q ∧
      q.Flips (fun a => Odd ((toggled id ops).count a)) p := by
  have hmandatory := h.lasting lasting_blocksMandatory id p hp
  refine hc.follows (R := fun ops q => q.Flips (fun a => Odd ((toggled id ops).count a)) p) h hp
    ((PolicyRecord.Flips.of_same (.refl p) hmandatory fun _ => .rfl).congr fun a _ => ?_) ?_
  · simp [toggled]
  · intro u ops o q hu hfresh ho hq hflips
    obtain ⟨q', hq', hflips'⟩ := hu.flips hfresh ho hq
    refine ⟨q', hq', (hflips'.trans hflips).congr fun a _ => ?_⟩
    rw [toggled_concat, List.count_append]
    cases o.toggled? id with
    | none => simp [xor_def]
    | some b =>
      by_cases hb : b = a
      · simp [hb, Nat.odd_add_one, xor_def]
      · simp [hb, xor_def]

theorem Reachable.restores {f : Action → Prop} (h : r.Reachable w) (hp : r.Stores w id p)
    (h' : r.Reachable w') (hq : r.Stores w' id q) (hflips : q.Flips f p)
    (hf : ∀ a, a ∉ Action.mandatory → ¬ f a) : q.Restores p := by
  obtain ⟨t, hholds, ht⟩ := h.consistent
  obtain ⟨t', hholds', ht'⟩ := h'.consistent
  exact hflips.restores hf (h.lasting lasting_blocksMandatory id p hp)
    (ht.sound id p (hholds.stores_iff.mp hp)) (ht'.sound id q (hholds'.stores_iff.mp hq))
    (h.lasting lasting_listsChains id p hp) (h'.lasting lasting_listsChains id q hq)

/-- Toggles combine as exclusive or. Whatever else happens in between, each is refused if it is for
an action that is denied in any case, and succeeds if it is not. In the end those actions are
flipped that were toggled an odd number of times. The order of the toggles does not matter, and
toggles that cancel each other out restore the policy and every decision of its document. -/
theorem Reachable.toggles_combine (h : r.Reachable w) (hp : r.Stores w id p)
    (hc : r.Course (Toggles id) w ops w') : ∃ q, r.Stores w' id q ∧
      q.Flips (fun a => Odd ((toggled id ops).count a)) p ∧
      (∀ a, a ∉ Action.mandatory →
        ∃ q' w'', (r.toggle (.string id) (.action a)).perform w' = (.ok q', w'')) ∧
      (∀ a ∈ Action.mandatory, (r.toggle (.string id) (.action a)).perform w' =
        (.error (.options (.mandatoryAction a)), w')) ∧
      (∀ ops' w'', r.Course (Toggles id) w ops' w'' → (toggled id ops').Perm (toggled id ops) →
        ∃ q', r.Stores w'' id q' ∧ q'.Restores q) ∧
      ((∀ a, a ∉ Action.mandatory → Even ((toggled id ops).count a)) → q.Restores p) := by
  have hmandatory := h.lasting lasting_blocksMandatory id p hp
  have h' := hc.reachable h
  obtain ⟨q, hq, hflips⟩ := hc.flips h hp
  obtain ⟨t', hholds', ht'⟩ := h'.consistent
  refine ⟨q, hq, hflips, fun a => hholds'.toggle_succeeds ht' (hholds'.stores_iff.mp hq),
    fun a ha => toggle_refused (.string id) ha, ?_, ?_⟩
  · intro ops' w'' hc' hperm
    obtain ⟨q', hq', hflips'⟩ := hc'.flips h hp
    refine ⟨q', hq', h'.restores hq (hc'.reachable h) hq'
      (hflips'.trans (hflips.symm hmandatory)) fun a _ => ?_⟩
    simp [hperm.count_eq]
  · intro heven
    exact h.restores hp h' hq hflips fun a ha => Nat.not_odd_iff_even.mpr (heven a ha)

def transferToggle : Operation := .toggle (.string "weekly") (.action .transfer)

/-- The mother blocks transfers and unblocks them again. -/
theorem household_toggles : household.Reachable evening ∧ ∃ p w' q,
    household.Stores evening "weekly" p ∧
    household.Course (Toggles "weekly") evening [transferToggle, transferToggle] w' ∧
    household.Stores w' "weekly" q ∧ q.Restores p := by
  obtain ⟨t, p, hholds, -, hgov, -⟩ := household_governs
  have hp := hholds.stores_iff.mpr hgov.policy
  have hfresh (w : World) : household.FreshFor w transferToggle := trivial
  have hallowed (w : World) : Toggles "weekly" w transferToggle := fun _ => ⟨.transfer, rfl⟩
  have hblocked := Course.refl.operation transferToggle (hfresh evening) (hallowed evening)
  have hc := hblocked.operation transferToggle (hfresh _) (hallowed _)
  obtain ⟨q, hq, -, -, -, -, hrestores⟩ := Reachable.toggles_combine household_reachable hp hc
  refine ⟨household_reachable, p, _, q, hp, hc, hq, hrestores fun a _ => ?_⟩
  cases a <;> decide

end Course

end Registry

end Allowance
