import Allowance.Proofs.Recased.World
import Allowance.Proofs.Registry.Quiet

/-! # The registry and letter case

Each operation of a registry does the same for every spelling of the addresses that it is given. It
looks children and parents up by their keys, and compiles a policy from the keys of the allowed
addresses, so two spellings lead to the same records, but for the parent and the child that a record
quotes.
-/

namespace Allowance

open List (Forall₂)

section Sorting

variable {α β : Type} {R : α → β → Prop} {xs : List α} {ys : List β}

/-- Lists are sorted alike if the order does not tell related elements apart. -/
theorem mergeSort_of_forall₂ {le : α → α → Bool} {le' : β → β → Bool} (h : Forall₂ R xs ys)
    (hle : ∀ a b a' b', R a b → R a' b' → le a a' = le' b b') :
    Forall₂ R (xs.mergeSort le) (ys.mergeSort le') := by
  obtain ⟨hlength, hpairs⟩ := List.forall₂_iff_zip.mp h
  have hR : ∀ z ∈ xs.zip ys, R z.1 z.2 := fun _ hz => hpairs hz
  -- The pairs are sorted by what stands on the left, which is to sort them by the right.
  have hleft : ((xs.zip ys).mergeSort fun y z => le y.1 z.1).map Prod.fst = xs.mergeSort le := by
    rw [List.map_mergeSort (f := Prod.fst) (s := le) fun _ _ _ _ => rfl,
      List.map_fst_zip (Nat.le_of_eq hlength)]
  have hright : ((xs.zip ys).mergeSort fun y z => le y.1 z.1).map Prod.snd =
      ys.mergeSort le' := by
    rw [List.map_mergeSort (f := Prod.snd) (s := le')
        fun y hy z hz => hle _ _ _ _ (hR y hy) (hR z hz),
      List.map_snd_zip (Nat.le_of_eq hlength.symm)]
  rw [← hleft, ← hright, List.forall₂_map_left_iff, List.forall₂_map_right_iff, List.forall₂_same]
  intro z hz
  exact hR z (List.mem_mergeSort.mp hz)

theorem allOrdered_of_forall₂ {less? : α → α → Option Bool} {less?' : β → β → Option Bool}
    (h : Forall₂ R xs ys) (hless : ∀ a b a' b', R a b → R a' b' → less? a a' = less?' b b') :
    Json.allOrdered less? xs = Json.allOrdered less?' ys := by
  induction h with
  | nil => rfl
  | @cons x y xs ys hxy hrest ih =>
    have hall : (xs.map fun a => (less? x a).isSome && (less? a x).isSome) =
        ys.map fun b => (less?' y b).isSome && (less?' b y).isSome :=
      map_eq_of_forall₂ hrest fun a b hab => by
        rw [hless x y a b hxy hab, hless a b x y hab hxy]
    have hall := congrArg (List.all · id) hall
    simp only [List.all_map, Function.comp_def, id_eq] at hall
    rw [Json.allOrdered, Json.allOrdered, hall, ih]

theorem sortedBy?_of_forall₂ {less? : α → α → Option Bool} {less?' : β → β → Option Bool}
    (h : Forall₂ R xs ys) (hless : ∀ a b a' b', R a b → R a' b' → less? a a' = less?' b b') :
    Option.Rel (Forall₂ R) (Json.sortedBy? less? xs) (Json.sortedBy? less?' ys) := by
  unfold Json.sortedBy?
  rw [allOrdered_of_forall₂ h hless]
  split
  · refine .some (mergeSort_of_forall₂ h ?_)
    intro a b a' b' hab hab'
    rw [hless a' b' a b hab' hab]
  · exact .none

end Sorting

namespace Registry

variable {r : Registry} {p q : PolicyRecord} {id child child' parent parent' : Json}

theorem stored_recased : (r.stored id).Recased r
    (fun u v => u = .null ∧ v = .null ∨ PolicyRecord.RecasedWire u v) (r.stored id) := by
  unfold stored
  split
  · exact State.get_recased .policies
  · refine .bind (State.get_recased .policies) fun _ _ _ => ?_
    split
    · exact .pure (Or.inl ⟨rfl, rfl⟩)
    · exact .throw (.same _)

theorem get_recased : (r.get id).Recased r PolicyRecord.Recased (r.get id) := by
  apply Step.Related.bind stored_recased
  rintro u v (⟨rfl, rfl⟩ | hwire)
  · exact .throw (.same _)
  · have hread := hwire.ofJson
    obtain ⟨p, q, chains, addresses, words, -, rfl, rfl⟩ := hwire
    exact .lift hread

theorem link?_recased (hchild : child.Recased child') :
    (r.link? child).Recased r (Option.Rel LinkRecord.Recased) (r.link? child') := by
  apply World.Recased.addressKey hchild
  intro key
  apply Step.Related.bind (State.get_recased .links)
  rintro u v (⟨rfl, rfl⟩ | hwire)
  · exact .pure .none
  · have hread := hwire.ofJson
    obtain ⟨l, m, -, rfl, rfl⟩ := hwire
    exact .map (.lift hread) fun _ _ => .some

theorem found?_recased {α β : Type} {S : α → β → Prop} {left : Step α} {right : Step β}
    (h : left.Recased r S right) : (found? left).Recased r (Option.Rel S) (found? right) := by
  apply Step.Related.tryCatch (.map h fun _ _ => .some)
  rintro e e' (e | hchild | hparent | hchild)
  · cases e <;> first | exact .pure .none | exact .throw (.same _)
  · exact .throw (.noPolicy hchild)
  · exact .throw (.badParent hparent)
  · exact .throw (.badChild hchild)

theorem childPolicy?_recased (hchild : child.Recased child') : (r.childPolicy? child).Recased r
    (Option.Rel PolicyRecord.Recased) (r.childPolicy? child') := by
  apply Step.Related.bind (link?_recased hchild)
  rintro _ _ (⟨parent, rfl, -⟩ | _)
  · apply Step.Related.bind (found?_recased get_recased)
    rintro _ _ (hpq | _)
    · exact .pure (.some hpq)
    · exact .bind World.Recased.log fun _ _ _ => .pure .none
  · exact .pure .none

theorem save_recased (h : p.Recased q) : (r.save p).Recased r Eq (r.save q) := by
  apply Step.Related.bind (.lift h.toJson)
  intro u v hwire
  rw [h.id]
  apply Step.Related.bind (World.Recased.check _)
  rintro key _ rfl
  exact State.put_recased .policies hwire

section Listing

variable {ps qs : List PolicyRecord} {keys : List String}

theorem older?_recased {p' q' : PolicyRecord} (h : p.Recased q) (h' : p'.Recased q') :
    older? p p' = older? q q' := by
  obtain ⟨_, _, rfl, -, -⟩ := h
  obtain ⟨_, _, rfl, -, -⟩ := h'
  rfl

theorem owned_recased (h : Forall₂ PolicyRecord.Recased ps qs) (key : String) :
    Forall₂ PolicyRecord.Recased (((ps.zip keys).filter (·.2 == key)).map (·.1))
      (((qs.zip keys).filter (·.2 == key)).map (·.1)) := by
  induction h generalizing keys with
  | nil => exact .nil
  | @cons p q ps qs hpq hrest ih =>
    cases keys with
    | nil => exact .nil
    | cons other keys =>
      rw [List.zip_cons_cons, List.zip_cons_cons, List.filter_cons, List.filter_cons]
      dsimp only
      split
      · exact .cons hpq ih
      · exact ih

theorem sorted_recased (h : Forall₂ PolicyRecord.Recased ps qs) :
    Step.Recased r (Forall₂ PolicyRecord.Recased)
      (match Json.sortedBy? older? ps with
        | some sorted => pure sorted
        | none => throw (.misuse .wrongKind))
      (match Json.sortedBy? older? qs with
        | some sorted => pure sorted
        | none => throw (.misuse .wrongKind)) := by
  have hsorted := sortedBy?_of_forall₂ h fun _ _ _ _ => older?_recased
  generalize Json.sortedBy? older? ps = sorted at hsorted
  generalize Json.sortedBy? older? qs = sorted' at hsorted
  cases hsorted with
  | none => exact .throw (.same _)
  | some hrest => exact .pure hrest

theorem keys_recased (h : Forall₂ PolicyRecord.Recased ps qs) : Step.Recased r Eq
    (ps.mapM fun p => Step.ofChecked p.parent.addressKey)
    (qs.mapM fun p => Step.ofChecked p.parent.addressKey) := by
  rw [← List.forall₂_eq_eq_eq]
  apply Step.Related.mapM h
  intro p q hpq
  rw [hpq.parent.addressKey]
  exact World.Recased.check _

theorem list_recased (hparent : parent.Recased parent') :
    (r.list parent).Recased r (Forall₂ PolicyRecord.Recased) (r.list parent') := by
  apply Step.Related.bind (State.values_recased .policies)
  intro us vs huvs
  apply Step.Related.bind (.mapM huvs fun _ _ huv => .ofChecked huv.ofJson)
  intro ps qs hpqs
  dsimp only
  rcases hparent.null_or with ⟨rfl, rfl⟩ | ⟨hleft, hright⟩
  · exact .bind (.pure hpqs) fun _ _ howned => sorted_recased howned
  · split
    · exact absurd rfl hleft
    · apply World.Recased.addressKey hparent
      intro key
      apply Step.Related.bind (keys_recased hpqs)
      rintro keys _ rfl
      exact .bind (.pure (owned_recased hpqs key)) fun _ _ howned => sorted_recased howned

end Listing

/-- What only reads the options of a record does not see how its addresses are spelled. -/
theorem compile_recased (h : p.Recased q) : r.compile p = r.compile q := by
  obtain ⟨parent, child, rfl, -, -⟩ := h
  rfl

theorem publish_recased (h : p.Recased q) : (r.publish p).Recased r Eq (r.publish q) := by
  obtain ⟨parent, child, rfl, hparent, hchild⟩ := h
  have hwithdraw := Shelf.remove_recased (r := r) hchild
  unfold publish
  dsimp only
  rcases hchild.null_or with ⟨hnull, rfl⟩ | ⟨hleft, hright⟩
  · rw [hnull]
    exact .pure rfl
  split
  · exact absurd ‹_› hleft
  split
  · split
    · exact Shelf.put_recased hchild ⟨hparent, .refl _⟩ (Or.inl rfl)
    · exact hwithdraw
  · exact hwithdraw

theorem unlink_recased (hchild : child.Recased child') :
    (r.unlink child).Recased r Eq (r.unlink child') := by
  apply World.Recased.addressKey hchild
  intro key
  exact .bind (State.delete_recased .links) fun _ _ _ => Shelf.remove_recased hchild

theorem release_recased {key : String} :
    (r.release id (.string key)).Recased r Eq (r.release id (.string key)) := by
  apply Step.Related.bind (link?_recased (.same _))
  rintro _ _ (⟨parent, rfl, -⟩ | _)
  · dsimp only
    split
    · exact .pure rfl
    · apply Step.Related.bind (found?_recased get_recased)
      rintro _ _ (hother | _)
      · apply Step.Related.bind World.Recased.now
        rintro now _ rfl
        exact save_recased (hother.with_child (.same _) _)
      · exact .pure rfl
  · exact .pure rfl

theorem create_recased {d d' : Draft} (hparent : parent.Recased parent') (hd : d.Recased d') :
    (r.create parent d).Recased r PolicyRecord.Recased (r.create parent' d') := by
  unfold create
  rw [hparent.isAddressValue]
  apply Step.Related.refuse (.badParent hparent)
  apply Step.Related.bind World.Recased.now
  rintro now _ rfl
  apply Step.Related.bind (.lift (hd.toRecord hparent .null (.number now)))
  rintro blank _ ⟨parent₁, child₁, rfl, hp, hc⟩
  apply Step.Related.bind World.Recased.freshId
  rintro fresh _ rfl
  apply Step.Related.bind (World.Recased.check _)
  rintro document _ rfl
  have hmade : PolicyRecord.Recased
      { blank with id := .string fresh, document := some document }
      { blank with
        id := .string fresh, parent := parent₁, child := child₁, document := some document } :=
    ⟨parent₁, child₁, rfl, hp, hc⟩
  apply Step.Related.bind (save_recased hmade)
  intro _ _ _
  exact .bind World.Recased.log fun _ _ _ => .pure hmade

theorem recompile_recased {c d : Changes} (hc : c.Recased d) (h : p.Recased q) :
    (r.recompile id c p).Recased r PolicyRecord.Recased (r.recompile id d q) := by
  unfold recompile
  rw [hc.fields.1, ← compile_recased h]
  obtain ⟨parent, child, rfl, hparent, hchild⟩ := h
  split
  · exact .pure ⟨parent, child, rfl, hparent, hchild⟩
  · split
    · exact .pure ⟨parent, child, rfl, hparent, hchild⟩
    · exact .bind World.Recased.log fun _ _ _ => .throw (.same _)
    · exact .throw (.same _)

theorem update_recased {c d : Changes} (hc : c.Recased d) :
    (r.update id c).Recased r PolicyRecord.Recased (r.update id d) := by
  unfold update
  obtain ⟨-, hfields, hfixed⟩ := hc.fields
  rw [hfields, hfixed]
  apply Step.Related.refuse (.same _)
  apply Step.Related.bind get_recased
  intro current current' hcurrent
  apply Step.Related.bind (.lift (hc.apply hcurrent))
  intro changed changed' hchanged
  apply Step.Related.bind World.Recased.now
  rintro now _ rfl
  apply Step.Related.bind (recompile_recased hc (hchanged.with_time _))
  intro p q hpq
  apply Step.Related.bind (save_recased hpq)
  intro _ _ _
  apply Step.Related.bind (publish_recased hpq)
  intro _ _ _
  exact .bind World.Recased.log fun _ _ _ => .pure hpq

theorem toggle_recased {entry : BlockedEntry} :
    (r.toggle id entry).Recased r PolicyRecord.Recased (r.toggle id entry) := by
  unfold toggle
  split
  · exact .throw (.same _)
  · apply Step.Related.bind get_recased
    rintro current _ ⟨parent, child, rfl, -, -⟩
    apply Step.Related.bind (World.Recased.check _)
    rintro blocked _ rfl
    exact update_recased (.refl _)

theorem delete_recased : (r.delete id).Recased r Eq (r.delete id) := by
  have hdelete : ∀ message, Step.Recased r Eq
      (do let _ ← State.delete r.path State.policies (← id.recordKey)
          Step.log .info logger message)
      (do let _ ← State.delete r.path State.policies (← id.recordKey)
          Step.log .info logger message) := by
    intro message
    apply Step.Related.bind (World.Recased.check _)
    rintro key _ rfl
    exact .bind (State.delete_recased .policies) fun _ _ _ => World.Recased.log
  apply Step.Related.bind get_recased
  rintro p _ ⟨parent, child, rfl, -, hchild⟩
  dsimp only
  rcases hchild.null_or with ⟨hnull, rfl⟩ | ⟨hleft, hright⟩
  · rw [hnull]
    exact hdelete _
  · split
    · exact absurd ‹_› hleft
    · exact .bind (unlink_recased hchild) fun _ _ _ => hdelete _

theorem attach_recased {key : String} (hchild : child.Recased child') (h : p.Recased q) :
    (r.attach id child key p).Recased r PolicyRecord.Recased (r.attach id child' key q) := by
  apply Step.Related.bind release_recased
  intro _ _ _
  apply Step.Related.bind World.Recased.now
  rintro now _ rfl
  have hlinked := h.with_child hchild (.number now)
  apply Step.Related.bind (save_recased hlinked)
  intro _ _ _
  apply Step.Related.bind (State.put_recased .links ⟨_, _, ⟨_, rfl, h.parent⟩, rfl, rfl⟩)
  intro _ _ _
  apply Step.Related.bind (publish_recased hlinked)
  intro _ _ _
  exact .bind World.Recased.log fun _ _ _ => .pure hlinked

theorem link_recased (hchild : child.Recased child') :
    (r.link id child).Recased r PolicyRecord.Recased (r.link id child') := by
  unfold link
  rw [hchild.isAddressValue]
  apply Step.Related.refuse (.badChild hchild)
  apply World.Recased.addressKey hchild
  intro key
  apply Step.Related.bind get_recased
  intro p q hpq
  have hattach : (r.attach id child key p).Recased r PolicyRecord.Recased
      (r.attach id child' key q) := attach_recased hchild hpq
  have hold := hpq.child
  dsimp only
  rcases hold.null_or with ⟨hleft, hright⟩ | ⟨hleft, hright⟩
  · rw [hleft, hright]
    exact hattach
  · split
    · exact absurd ‹_› hleft
    · rw [← hold.addressKey]
      apply Step.Related.bind (World.Recased.check _)
      rintro other _ rfl
      split
      · exact .bind (unlink_recased hold) fun _ _ _ => hattach
      · exact hattach

theorem preflight_recased {tx tx' : Request} {now : Json} (hchild : child.Recased child')
    (htx : tx.Recased tx') :
    (r.preflight child tx now).Recased r Eq (r.preflight child' tx' now) := by
  apply Step.Related.bind (childPolicy?_recased hchild)
  rintro _ _ (⟨parent, old, rfl, -, -⟩ | _)
  · dsimp only
    split
    · exact .pure rfl
    · split
      · exact .pure rfl
      · rename_i document _ _
        have hdocument := Document.Recased.refl document
        split
        · apply Step.Related.bind World.Recased.now
          rintro now _ rfl
          exact .pure (hdocument.evaluate htx _)
        · rw [hdocument.evaluateAt htx]
          exact World.Recased.check _
  · exact .pure rfl

end Registry

end Allowance
