import Allowance.Proofs.Registry.Authority

/-! # Operations that fail

An operation of the registry that fails has written nothing: every check comes before the first
write, and once an operation writes it cannot fail. For this the stored policies have to be sound
and the links have to name policies, which operations see to even when an id is drawn twice.
-/

namespace Allowance

namespace Registry

variable {r : Registry} {w w' : World} {t : Tables} {p q : PolicyRecord} {id key : String}
  {o : Operation} {e : Fault}

def run (r : Registry) : Operation → Step Unit
  | .create parent draft => (fun _ => ()) <$> r.create parent draft
  | .update id changes => (fun _ => ()) <$> r.update id changes
  | .toggle id entry => (fun _ => ()) <$> r.toggle id entry
  | .setActive id active => (fun _ => ()) <$> r.setActive id active
  | .link id child => (fun _ => ()) <$> r.link id child
  | .delete id => r.delete id

theorem run_world : ((r.run o).perform w).2 = r.after w o := by
  cases o <;> simp [run, after]

/-- What operations rely on: a link may name a policy that is gone, or one that has another child,
but what it names is an id. -/
structure Tables.Orderly (r : Registry) (t : Tables) : Prop where
  sound : ∀ id p, t.policy id = some p → p.Sound r id
  named : ∀ key l, t.link key = some l → ∃ id, l.policy = .string id

namespace Tables

theorem orderly_blank : Orderly r ⟨fun _ => none, fun _ => none, fun _ => none⟩ := ⟨nofun, nofun⟩

theorem Orderly.store (h : t.Orderly r) (hq : q.Sound r id) : (t.store id q).Orderly r :=
  ⟨sound_store h.sound hq, h.named⟩

theorem Orderly.publish (h : t.Orderly r) (p : PolicyRecord) : (t.publish p).Orderly r :=
  ⟨by rw [publish_policy]; exact h.sound, by rw [publish_link]; exact h.named⟩

theorem Orderly.unlink (h : t.Orderly r) (child : Json) : (t.unlink child).Orderly r := by
  refine ⟨by rw [unlink_policy]; exact h.sound, fun key l hl => ?_⟩
  cases child with
  | string c =>
    simp only [Tables.unlink, Function.update_apply] at hl
    split at hl
    · cases hl
    · exact h.named key l hl
  | _ => exact h.named key l hl

theorem Orderly.drop (h : t.Orderly r) (id : String) : (t.drop id).Orderly r := by
  refine ⟨fun other p hp => ?_, h.named⟩
  simp only [Tables.drop, Function.update_apply] at hp
  split at hp
  · cases hp
  · exact h.sound other p hp

theorem Orderly.detach (h : t.Orderly r) (p : PolicyRecord) (key : String) :
    (t.detach p key).Orderly r := by
  unfold Tables.detach
  split
  · split
    · exact h
    · exact h.unlink _
  · exact h

theorem Orderly.released {t' : Tables} (h : t.Orderly r) (ht' : t.Released r w id key t') :
    t'.Orderly r :=
  ⟨ht'.sound h.sound, by rw [ht'.link_eq]; exact h.named⟩

theorem Orderly.attach (h : t.Orderly r) (hq : q.Sound r id) : (t.attach id key q).Orderly r := by
  refine ⟨by rw [attach_policy]; exact sound_store h.sound hq, fun other l hl => ?_⟩
  rw [attach_link] at hl
  split at hl
  · obtain rfl := Option.some.inj hl
    exact ⟨id, rfl⟩
  · exact h.named other l hl

end Tables

def Usable (r : Registry) (w : World) : Prop := ∃ t, r.Holds w t ∧ t.Orderly r

theorem Updated.usable {v : Json} {c : Changes} {now : Number} (ht : t.Orderly r)
    (h : r.Updated t v c now p w') : r.Usable w' := by
  obtain ⟨key, old, changed, document, q, rfl, hold, hchanged, rfl, hagrees, hq, hholds⟩ := h
  exact ⟨_, hholds, (ht.store hq).publish q⟩

theorem Linked.usable {v child : Json} (ht : t.Orderly r) (h : r.Linked w t v child p w') :
    r.Usable w' := by
  obtain ⟨id, address, old, now, q, t', rfl, rfl, _, _, _, rfl, _, hq, hreleased, hholds⟩ := h
  exact ⟨_, hholds, ((ht.detach old _).released hreleased).attach hq⟩

/-- An operation that succeeds leaves tables that the next one can rely on, and one that fails
leaves everything that is written as it was. -/
theorem Holds.run_leads (h : r.Holds w t) (ht : t.Orderly r) :
    (r.run o).Leads w (fun _ w' => r.Usable w') (fun _ w' => w.Kept w') := by
  cases o with
  | create parent draft =>
    refine .map (.mono h.create (fun p w' hp => ?_) fun _ _ hkept => hkept)
    obtain ⟨_, ⟨q, _, hq, hholds⟩, _, _⟩ := hp
    exact ⟨_, hholds, ht.store hq⟩
  | update id changes =>
    exact .map (.mono (h.update ht.sound) (fun _ _ hu => hu.usable ht) fun _ _ hkept => hkept)
  | toggle id entry =>
    refine .map (.mono (h.toggle ht.sound) (fun p w' hp => ?_) fun _ _ hkept => hkept)
    obtain ⟨_, _, _, _, _, hu⟩ := hp
    exact hu.usable ht
  | setActive id active =>
    exact .map (.mono (h.update ht.sound) (fun _ _ hu => hu.usable ht) fun _ _ hkept => hkept)
  | link id child =>
    exact .map (.mono (h.link ht.sound ht.named) (fun _ _ hl => hl.usable ht)
      fun _ _ hkept => hkept)
  | delete id =>
    refine .mono (h.delete ht.sound) (fun _ w' hd => ?_) fun _ _ hkept => hkept
    obtain ⟨key, old, _, _, hholds⟩ := hd
    exact ⟨_, hholds, (ht.unlink _).drop key⟩

/-- The worlds that operations lead to from blank records, whatever ids are drawn. -/
inductive Attained (r : Registry) : World → Prop
  | blank {w : World} : r.Blank w → Attained r w
  | operation {w : World} (o : Operation) : Attained r w → Attained r (r.after w o)
  | elsewhere {w w' : World} :
      Attained r w → w'.disk = w.disk → w'.shelf = w.shelf → Attained r w'

theorem Reachable.attained (h : r.Reachable w) : r.Attained w := by
  induction h with
  | blank hblank => exact .blank hblank
  | operation o _ _ ih => exact .operation o ih
  | elsewhere _ hdisk hshelf ih => exact .elsewhere ih hdisk hshelf

theorem Attained.usable (h : r.Attained w) : r.Usable w := by
  induction h with
  | blank hblank => exact ⟨_, hblank.holds, Tables.orderly_blank⟩
  | operation o _ ih =>
    obtain ⟨t, hholds, ht⟩ := ih
    rw [← run_world]
    exact (hholds.run_leads ht).world (fun _ _ husable => husable)
      fun _ _ hkept => ⟨t, hholds.kept hkept, ht⟩
  | elsewhere _ hdisk hshelf ih =>
    obtain ⟨t, hholds, ht⟩ := ih
    exact ⟨t, hholds.congr hdisk hshelf, ht⟩

/-- An operation that fails leaves policies, links and published documents exactly as they were, so
every request is decided as before. -/
theorem Attained.kept_of_error (h : r.Attained w) (o : Operation)
    (hrun : (r.run o).perform w = (.error e, w')) : w.Kept w' ∧
      ∀ (c : String) (tx : Request) (now : Number), ∃ found u u',
        (r.shelf.authorize (.string c) tx).perform (w.atTime now) =
            (.ok (Publication.decide found tx now, found), u) ∧
          (r.shelf.authorize (.string c) tx).perform (w'.atTime now) =
            (.ok (Publication.decide found tx now, found), u') := by
  obtain ⟨t, hholds, ht⟩ := h.usable
  have hkept : w.Kept w' := by
    have hleads := hholds.run_leads ht (o := o)
    rwa [Step.Leads, hrun] at hleads
  refine ⟨hkept, fun c tx now => ⟨t.published (Address.key c), ?_⟩⟩
  obtain ⟨u, hu⟩ := (hholds.atTime now).authorize c tx
  obtain ⟨u', hu'⟩ := ((hholds.kept hkept).atTime now).authorize c tx
  exact ⟨u, u', hu, hu'⟩

def debt : Changes := { usdLimit := some (.int (-1)) }

theorem not_updated_debt {now : Number} : ¬ r.Updated t (.string id) debt now p w' := by
  rintro ⟨key, old, changed, document, q, _, _, hchanged, rfl, hagrees, hq, _⟩
  obtain ⟨s, _, hcheck, _, _⟩ := hq.compiled
  obtain ⟨_, _, _, _, _, _, rfl⟩ := Changes.apply_eq_ok.mp hchanged
  have hlimit : q.options.usdLimit = .int (-1) := hagrees.usdLimit
  have hpassed := (Options.check_eq_ok.mp hcheck).1
  rw [hlimit] at hpassed
  obtain ⟨hnull, _⟩ | ⟨n, hn, _, hpositive, _⟩ := Options.checkLimit_eq_ok.mp hpassed
  · cases hnull
  · obtain rfl := Json.number.inj hn
    exact absurd hpositive (by decide +kernel)

theorem Holds.run_debt (h : r.Holds w t) (ht : t.Orderly r) :
    ∃ e w', (r.run (.update (.string id) debt)).perform w = (.error e, w') := by
  have hupdate : (r.update (.string id) debt).Leads w _ _ := h.update ht.sound
  cases hperform : (r.update (.string id) debt).perform w with
  | mk found w' =>
    rw [Step.Leads, hperform] at hupdate
    cases found with
    | ok p => exact absurd hupdate not_updated_debt
    | error e => exact ⟨e, w', by simp [run, hperform, Except.map]⟩

theorem household_atomic : ∃ e w',
    (household.run (.update (.string "weekly") debt)).perform evening = (.error e, w') ∧
      evening.Kept w' := by
  obtain ⟨t, hholds, ht⟩ := household_reachable.attained.usable
  obtain ⟨e, w', hrun⟩ := hholds.run_debt ht
  exact ⟨e, w', hrun, (Attained.kept_of_error household_reachable.attained _ hrun).1⟩

end Registry

end Allowance
