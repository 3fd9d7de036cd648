import Allowance.Proofs.Recased.Record
import Allowance.Proofs.Registry.Tables

/-! # Worlds and letter case

Two worlds are recased when the tables of a registry have the same keys in both, in the same order,
and hold records that differ in the spelling of addresses alone, and when the clock and the source
of ids have come equally far. Keys have no letter case, so whatever reads or writes one of the
tables does the same in both worlds.
-/

namespace Allowance

open List (Forall₂)

section Rows

variable {α β : Type} {V : α → β → Prop} {xs : List (String × α)} {ys : List (String × β)}

/-- The entries have the same keys in the same order, and related values. -/
def Rows (V : α → β → Prop) (xs : List (String × α)) (ys : List (String × β)) : Prop :=
  Forall₂ (fun x y => x.1 = y.1 ∧ V x.2 y.2) xs ys

namespace Rows

theorem lookup (h : Rows V xs ys) (key : String) :
    Option.Rel V (xs.lookup key) (ys.lookup key) := by
  induction h with
  | nil => exact .none
  | @cons x y _ _ hxy _ ih =>
    obtain ⟨hkey, hvalue⟩ := hxy
    rw [lookup_cons_if, lookup_cons_if, hkey]
    split
    · exact .some hvalue
    · exact ih

theorem without (h : Rows V xs ys) (key : String) :
    Rows V (xs.filter (·.1 != key)) (ys.filter (·.1 != key)) := by
  refine List.rel_filter (fun x y hxy => ?_) h
  simp only [hxy.1]

theorem append (h : Rows V xs ys) {key : String} {a : α} {b : β} (hab : V a b) :
    Rows V (xs ++ [(key, a)]) (ys ++ [(key, b)]) := by
  apply List.rel_append h
  exact .cons ⟨rfl, hab⟩ .nil

theorem values (h : Rows V xs ys) : Forall₂ V (xs.map (·.2)) (ys.map (·.2)) :=
  List.rel_map (fun _ _ hxy => hxy.2) h

theorem put {V : Json → Json → Prop} {xs ys : Json.Fields} {u v : Json} (h : Rows V xs ys)
    (key : String) (huv : V u v) :
    Rows V (Json.Fields.put xs key u) (Json.Fields.put ys key v) := by
  induction h with
  | nil => exact .cons ⟨rfl, huv⟩ .nil
  | @cons x y xs ys hxy hrest ih =>
    obtain ⟨hkey, hvalue⟩ := hxy
    unfold Json.Fields.put
    rw [hkey]
    split
    · exact .cons ⟨rfl, huv⟩ hrest
    · exact .cons ⟨rfl, hvalue⟩ ih

end Rows

end Rows

namespace State

variable {V : Json → Json → Prop} {d d' e e' : Disk} {w w' : World}
  {path name path' name' key : String} {u v : Json}

def Paired (V : Json → Json → Prop) (d d' : Disk) (path name : String) : Prop :=
  ∃ records records', Section d path name records ∧ Section d' path name records' ∧
    Rows V records records'

namespace Paired

theorem of_others (h : Paired V d d' path' name') (hothers : Others d e path name)
    (hothers' : Others d' e' path name) (hind : Independent path name path' name') :
    Paired V e e' path' name' := by
  obtain ⟨records, records', hsection, hsection', hrows⟩ := h
  exact ⟨records, records', hothers _ _ _ hind hsection, hothers' _ _ _ hind hsection', hrows⟩

theorem get (h : Paired V w.disk w'.disk path name) (key : String) : ∃ u v,
    (State.get path name key).perform w = (.ok u, w) ∧
      (State.get path name key).perform w' = (.ok v, w') ∧ (u = .null ∧ v = .null ∨ V u v) := by
  obtain ⟨records, records', hsection, hsection', hrows⟩ := h
  refine ⟨_, _, hsection.get, hsection'.get, ?_⟩
  have hfound := hrows.lookup key
  generalize records.lookup key = found at hfound
  generalize records'.lookup key = found' at hfound
  cases hfound with
  | none => exact Or.inl ⟨rfl, rfl⟩
  | some huv => exact Or.inr huv

theorem put (h : Paired V w.disk w'.disk path name) (key : String) (huv : V u v) : ∃ e e',
    (State.put path name key u).perform w = (.ok (), { w with disk := e }) ∧
      (State.put path name key v).perform w' = (.ok (), { w' with disk := e' }) ∧
      Paired V e e' path name ∧ Others w.disk e path name ∧ Others w'.disk e' path name := by
  obtain ⟨records, records', hsection, hsection', hrows⟩ := h
  obtain ⟨e, hput, hnew, hothers⟩ := hsection.put key u
  obtain ⟨e', hput', hnew', hothers'⟩ := hsection'.put key v
  exact ⟨e, e', hput, hput', ⟨_, _, hnew, hnew', hrows.put key huv⟩, hothers, hothers'⟩

theorem delete (h : Paired V w.disk w'.disk path name) (key : String) : ∃ found e e',
    (State.delete path name key).perform w = (.ok found, { w with disk := e }) ∧
      (State.delete path name key).perform w' = (.ok found, { w' with disk := e' }) ∧
      Paired V e e' path name ∧ Others w.disk e path name ∧ Others w'.disk e' path name := by
  obtain ⟨records, records', hsection, hsection', hrows⟩ := h
  obtain ⟨e, hdelete, hnew, hothers⟩ := hsection.delete key
  obtain ⟨e', hdelete', hnew', hothers'⟩ := hsection'.delete key
  have hfound : (records.lookup key).isSome = (records'.lookup key).isSome := by
    have hrel := hrows.lookup key
    generalize records.lookup key = found at hrel
    generalize records'.lookup key = found' at hrel
    cases hrel <;> rfl
  rw [← hfound] at hdelete'
  exact ⟨_, e, e', hdelete, hdelete', ⟨_, _, hnew, hnew', hrows.without key⟩, hothers, hothers'⟩

theorem values (h : Paired V w.disk w'.disk path name) : ∃ us vs,
    (State.values path name).perform w = (.ok us, w) ∧
      (State.values path name).perform w' = (.ok vs, w') ∧ Forall₂ V us vs := by
  obtain ⟨records, records', hsection, hsection', hrows⟩ := h
  exact ⟨_, _, hsection.values, hsection'.values, hrows.values⟩

end Paired

end State

inductive State.Keeps : String → (Json → Json → Prop) → Prop
  | policies : Keeps State.policies PolicyRecord.RecasedWire
  | links : Keeps State.links LinkRecord.RecasedWire

def Shelf.Recased (shelf : Shelf) (w w' : World) : Prop :=
  match shelf with
  | memory => Rows Publication.Recased w.shelf w'.shelf
  | file path => State.Paired Publication.RecasedWire w.disk w'.disk path State.publications

/-- The worlds are the same to a registry, but for the spelling of addresses. -/
structure World.Recased (r : Registry) (w w' : World) : Prop where
  separate : r.Separate
  time : w'.sources.time = w.sources.time
  id : w'.sources.id = w.sources.id
  times : w'.times = w.times
  ids : w'.ids = w.ids
  policies : State.Paired PolicyRecord.RecasedWire w.disk w'.disk r.path State.policies
  links : State.Paired LinkRecord.RecasedWire w.disk w'.disk r.path State.links
  published : r.shelf.Recased w w'

/-- In recased worlds the steps give related results, or faults that differ in the spelling of an
address alone, and leave recased worlds. -/
abbrev Step.Recased {α β : Type} (r : Registry) (S : α → β → Prop) (left : Step α)
    (right : Step β) : Prop :=
  left.Related (World.Recased r) Fault.Recased S right

variable {r : Registry} {w w' : World} {d d' : Disk} {name key : String} {u v : Json}
  {V : Json → Json → Prop}

namespace World.Recased

theorem table (h : Recased r w w') (hname : State.Keeps name V) :
    State.Paired V w.disk w'.disk r.path name := by
  cases hname with
  | policies => exact h.policies
  | links => exact h.links

theorem of_table (h : Recased r w w') (hname : State.Keeps name V)
    (hpaired : State.Paired V d d' r.path name) (hothers : State.Others w.disk d r.path name)
    (hothers' : State.Others w'.disk d' r.path name) :
    Recased r { w with disk := d } { w' with disk := d' } := by
  have hkeep : ∀ {other W}, State.Keeps other W → other ≠ name →
      State.Paired W d d' r.path other :=
    fun hother hne => (h.table hother).of_others hothers hothers' (Or.inl ⟨rfl, hne⟩)
  have hpublished : r.shelf.Recased { w with disk := d } { w' with disk := d' } := by
    have hne : State.publications ≠ name := by cases hname <;> decide
    have hp := h.published
    unfold Shelf.Recased at hp ⊢
    split at hp
    · exact hp
    · rename_i path hshelf
      refine hp.of_others hothers hothers' ?_
      rcases h.separate path hshelf with rfl | ⟨hapart, -⟩
      · exact Or.inl ⟨rfl, hne⟩
      · exact Or.inr hapart
  cases hname with
  | policies => exact { h with
      policies := hpaired, links := hkeep .links (by decide), published := hpublished }
  | links => exact { h with
      policies := hkeep .policies (by decide), links := hpaired, published := hpublished }

theorem of_shelf (h : Recased r w w') {path : String} (hshelf : r.shelf = .file path)
    (hpaired : State.Paired Publication.RecasedWire d d' path State.publications)
    (hothers : State.Others w.disk d path State.publications)
    (hothers' : State.Others w'.disk d' path State.publications) {log log' : List LogEntry} :
    Recased r { w with disk := d, log } { w' with disk := d', log := log' } := by
  have hind : ∀ name, name ≠ State.publications →
      State.Independent path State.publications r.path name := by
    intro name hname
    rcases h.separate path hshelf with rfl | ⟨-, hapart⟩
    · exact Or.inl ⟨rfl, hname⟩
    · exact Or.inr hapart
  refine { h with policies := ?_, links := ?_, published := ?_ }
  · exact h.policies.of_others hothers hothers' (hind _ (by decide))
  · exact h.links.of_others hothers hothers' (hind _ (by decide))
  · rw [hshelf]
    exact hpaired

theorem now : Step.now.Recased r Eq Step.now := by
  intro w w' h
  have htime : w'.sources.time w'.times = w.sources.time w.times := by rw [h.time, h.times]
  rw [Step.perform_now, Step.perform_now, htime]
  exact ⟨.ok rfl, { h with times := congrArg (· + 1) h.times }⟩

theorem freshId : Step.freshId.Recased r Eq Step.freshId := by
  intro w w' h
  have hid : w'.sources.id w'.ids = w.sources.id w.ids := by rw [h.id, h.ids]
  rw [Step.perform_freshId, Step.perform_freshId, hid]
  exact ⟨.ok rfl, { h with ids := congrArg (· + 1) h.ids }⟩

theorem check {α : Type} (x : Checked α) : (liftM x : Step α).Recased r Eq (liftM x) :=
  .lift (.refl .same (fun _ => rfl) x)

theorem addressKey {α β : Type} {S : α → β → Prop} {f : String → Step α} {g : String → Step β}
    (huv : u.Recased v) (hfg : ∀ key, (f key).Recased r S (g key)) :
    Step.Recased r S (liftM u.addressKey >>= f) (liftM v.addressKey >>= g) := by
  rw [← huv.addressKey]
  apply Step.Related.bind (check _)
  rintro key _ rfl
  exact hfg key

theorem log {level level' : Level} {logger logger' message message' : String} :
    (Step.log level logger message).Recased r Eq (Step.log level' logger' message') :=
  fun _ _ h => ⟨.ok rfl, { h with }⟩

end World.Recased

namespace State

theorem get_recased (hname : Keeps name V) : (State.get r.path name key).Recased r
    (fun u v => u = .null ∧ v = .null ∨ V u v) (State.get r.path name key) := by
  intro w w' h
  obtain ⟨u, v, hget, hget', huv⟩ := (h.table hname).get key
  rw [hget, hget']
  exact ⟨.ok huv, h⟩

theorem put_recased (hname : Keeps name V) (huv : V u v) :
    (State.put r.path name key u).Recased r Eq (State.put r.path name key v) := by
  intro w w' h
  obtain ⟨d, d', hput, hput', hpaired, hothers, hothers'⟩ := (h.table hname).put key huv
  rw [hput, hput']
  exact ⟨.ok rfl, h.of_table hname hpaired hothers hothers'⟩

theorem delete_recased (hname : Keeps name V) :
    (State.delete r.path name key).Recased r Eq (State.delete r.path name key) := by
  intro w w' h
  obtain ⟨found, d, d', hdelete, hdelete', hpaired, hothers, hothers'⟩ :=
    (h.table hname).delete key
  rw [hdelete, hdelete']
  exact ⟨.ok rfl, h.of_table hname hpaired hothers hothers'⟩

theorem values_recased (hname : Keeps name V) :
    (State.values r.path name).Recased r (Forall₂ V) (State.values r.path name) := by
  intro w w' h
  obtain ⟨us, vs, hvalues, hvalues', huvs⟩ := (h.table hname).values
  rw [hvalues, hvalues']
  exact ⟨.ok huvs, h⟩

end State

namespace Shelf

variable {child child' : Json} {p q : Publication}

theorem get?_recased (hchild : child.Recased child') :
    (r.shelf.get? child).Recased r (Option.Rel Publication.Recased) (r.shelf.get? child') := by
  apply World.Recased.addressKey hchild
  intro key w w' h
  have hpublished := h.published
  cases hshelf : r.shelf with
  | memory =>
    rw [hshelf] at hpublished
    exact ⟨.ok (hpublished.lookup key), h⟩
  | file path =>
    rw [hshelf] at hpublished
    obtain ⟨u, v, hget, hget', huv⟩ := hpublished.get key
    dsimp only
    rw [Step.perform_bind_of_ok hget, Step.perform_bind_of_ok hget']
    rcases huv with ⟨rfl, rfl⟩ | hwire
    · exact ⟨.ok .none, h⟩
    · have hread : (some <$> liftM (Publication.ofJson u) : Step _).Recased r
          (Option.Rel Publication.Recased) (some <$> liftM (Publication.ofJson v)) :=
        .map (.lift hwire.ofJson) fun _ _ => .some
      obtain ⟨p, q, -, -, rfl, rfl⟩ := hwire
      exact hread w w' h

theorem put_recased (hchild : child.Recased child') (hpq : p.Recased q)
    (hread : q.document = p.document ∨ p.document.WellFormed ∧ q.document.WellFormed) :
    (r.shelf.put child p).Recased r Eq (r.shelf.put child' q) := by
  apply World.Recased.addressKey hchild
  intro key w w' h
  have hpublished := h.published
  cases hshelf : r.shelf with
  | memory =>
    rw [hshelf] at hpublished
    refine ⟨.ok rfl, { h with published := ?_ }⟩
    rw [hshelf]
    exact (hpublished.without key).append hpq
  | file path =>
    rw [hshelf] at hpublished
    obtain ⟨d, d', hput, hput', hpaired, hothers, hothers'⟩ :=
      hpublished.put key ⟨p, q, hpq, hread, rfl, rfl⟩
    dsimp only
    rw [Step.perform_bind_of_ok hput, Step.perform_bind_of_ok hput']
    exact ⟨.ok rfl, h.of_shelf hshelf hpaired hothers hothers'⟩

theorem remove_recased (hchild : child.Recased child') :
    (r.shelf.remove child).Recased r Eq (r.shelf.remove child') := by
  apply World.Recased.addressKey hchild
  intro key w w' h
  have hpublished := h.published
  cases hshelf : r.shelf with
  | memory =>
    rw [hshelf] at hpublished
    refine ⟨.ok rfl, { h with published := ?_ }⟩
    rw [hshelf]
    exact hpublished.without key
  | file path =>
    rw [hshelf] at hpublished
    obtain ⟨found, d, d', hdelete, hdelete', hpaired, hothers, hothers'⟩ := hpublished.delete key
    dsimp only
    rw [Step.perform_bind_of_ok hdelete, Step.perform_bind_of_ok hdelete']
    exact ⟨.ok rfl, h.of_shelf hshelf hpaired hothers hothers'⟩

theorem require_recased (hchild : child.Recased child') :
    (r.shelf.require child).Recased r Publication.Recased (r.shelf.require child') := by
  apply Step.Related.bind (get?_recased hchild)
  intro found found' hfound
  cases hfound with
  | none => exact .throw (.noPolicy hchild.plain)
  | some hpq => exact .pure hpq

theorem authorize_recased {tx tx' : Request} (hchild : child.Recased child')
    (htx : tx.Recased tx') : (r.shelf.authorize child tx).Recased r
      (fun x y => x.1 = y.1 ∧ Option.Rel Publication.Recased x.2 y.2)
      (r.shelf.authorize child' tx') := by
  apply Step.Related.bind (get?_recased hchild)
  intro found found' hfound
  cases hfound with
  | none => exact .bind World.Recased.log fun _ _ _ => .pure ⟨rfl, .none⟩
  | @some p q hpq =>
    apply Step.Related.bind World.Recased.now
    rintro now _ rfl
    dsimp only
    rw [hpq.document.evaluate htx]
    exact .bind World.Recased.log fun _ _ _ => .pure ⟨rfl, .some hpq⟩

end Shelf

end Allowance
