import Allowance.Proofs.Registry.Reachable
import Allowance.Proofs.Settings.Enforcement

/-! # The two checks of a request

The authoritative check reads what is published for a child, and the advisory one goes from the link
to the policy. In a reachable world both see the document that the present settings of the policy
give, so both allow what these settings permit, as long as the policy is active.
-/

namespace Allowance

variable {r : Registry} {w : World} {p : PolicyRecord} {tx : Request} {now : Number}

namespace PolicyRecord

theorem CompiledBy.allowed_iff {d : Document} (h : p.CompiledBy r) (hd : p.document = some d)
    (hv : tx.valueUsd ≠ some (.double .nan)) :
    (d.evaluate tx (some now)).allowed = true ↔
      p.options.Permits r.defaultChains tx (some now) := by
  obtain ⟨s, cs, hcheck, hperm, hdocument⟩ := h
  obtain rfl := Option.some.inj (hd.symm.trans hdocument)
  exact Options.allowed_iff_permits hcheck hperm hv

theorem Sound.hasChild_of_key {id c a : String} (h : p.Sound r id) (hchild : p.child = .string a)
    (hkey : Address.key a = Address.key c) : p.HasChild (Address.key c) := by
  obtain hnull | ⟨_, b, hb, haddress, rfl⟩ := h.child
  · simp [hnull] at hchild
  · obtain rfl := Json.string.inj (hchild.symm.trans hb)
    exact ⟨a, hchild, haddress, hkey⟩

end PolicyRecord

def World.atTime (w : World) (now : Number) : World :=
  { w with sources := { w.sources with time := fun _ => now } }

def Publication.decide (found : Option Publication) (tx : Request) (now : Number) : Decision :=
  match found with
  | none => .deny .noPolicy
  | some pub => pub.document.evaluate tx (some now)

namespace Shelf

variable {shelf : Shelf} {w' : World} {c key : String}

theorem entry?_kept (hkept : w.Kept w') :
    (shelf.entry? key).perform w' = (((shelf.entry? key).perform w).1, w') := by
  cases shelf with
  | memory => simp [Shelf.entry?, hkept.shelf]
  | file path =>
    simp only [Shelf.entry?, Step.perform_bind, State.perform_get, hkept.disk]
    cases w.disk.state? path >>= fun state =>
      (State.sectionOf state State.publications).field key with
    | error e => rfl
    | ok v => cases v <;> simp

theorem authorize_of_entry {found : Option Publication}
    (h : (shelf.entry? (Address.key c)).perform w = (.ok found, w)) (tx : Request) : ∃ w',
    (shelf.authorize (.string c) tx).perform w =
        (.ok (Publication.decide found tx (w.sources.time w.times), found), w') ∧
      w.Kept w' ∧ w.Unasked w' := by
  have hget : (shelf.get? (.string c)).perform w = (.ok found, w) := by rw [get?_eq, h]
  cases found with
  | none =>
    exact ⟨_, (Step.perform_bind_of_ok hget).trans (Step.perform_bind_of_ok Step.perform_log),
      ⟨rfl, rfl⟩, rfl, rfl, rfl, Nat.le_refl _⟩
  | some pub =>
    exact ⟨_, (Step.perform_bind_of_ok hget).trans ((Step.perform_bind_of_ok Step.perform_now).trans
      (Step.perform_bind_of_ok Step.perform_log)), ⟨rfl, rfl⟩, rfl, rfl, rfl, Nat.le_succ _⟩

theorem authorize_of_error {e : Fault}
    (h : (shelf.entry? (Address.key c)).perform w = (.error e, w)) :
    (shelf.authorize (.string c) tx).perform w = (.error e, w) := by
  have hget : (shelf.get? (.string c)).perform w = (.error e, w) := by rw [get?_eq, h]
  rw [authorize, Step.perform_bind, hget]

end Shelf

namespace Registry

variable {t : Tables}

theorem Holds.atTime (h : r.Holds w t) (now : Number) : r.Holds (w.atTime now) t :=
  h.congr rfl rfl

/-- The authoritative check decides by what is published under the key of the child. -/
theorem Holds.authorize (h : r.Holds w t) (c : String) (tx : Request) : ∃ w',
    (r.shelf.authorize (.string c) tx).perform w =
      (.ok (Publication.decide (t.published (Address.key c)) tx (w.sources.time w.times),
        t.published (Address.key c)), w') := by
  obtain ⟨w', hauthorize, _⟩ := Shelf.authorize_of_entry (h.entry (Address.key c)) tx
  exact ⟨w', hauthorize⟩

theorem Holds.childPolicy?_of_free (h : r.Holds w t) {c : String} (hc : t.Free (Address.key c)) :
    (r.childPolicy? (.string c)).perform w = (.ok none, w) := by
  have hlink : (r.link? (.string c)).perform w = (.ok none, w) := by rw [h.link?, hc.link]
  exact Step.perform_bind_of_ok hlink

theorem Holds.childPolicy?_of_governs (h : r.Holds w t) {c id : String}
    (hc : t.Governs id p (Address.key c)) :
    (r.childPolicy? (.string c)).perform w = (.ok (some p), w) := by
  have hlink := h.link? (c := c)
  rw [hc.link] at hlink
  have hget : (found? (r.get (.string id))).perform w = (.ok (some p), w) := by
    simp [found?, Step.perform_tryCatch, h.get, hc.policy]
  refine (Step.perform_bind_of_ok hlink).trans ?_
  exact Step.perform_bind_of_ok hget

/-- The advisory check decides by the policy that governs the child. -/
theorem Holds.preflight (h : r.Holds w t) {c id : String} {d : Document}
    (hc : t.Governs id p (Address.key c)) (hd : p.document = some d) (tx : Request)
    (now : Number) :
    (r.preflight (.string c) tx (.number now)).perform w =
      (.ok (if p.isActive.truthy then d.evaluate tx (some now) else .deny .inactive), w) := by
  refine (Step.perform_bind_of_ok (h.childPolicy?_of_governs hc)).trans ?_
  simp only [hd]
  cases p.isActive.truthy <;> rfl

theorem Tables.Governs.decide_allowed_iff {c id : String} (hc : t.Governs id p (Address.key c))
    (hp : p.Sound r id) (hv : tx.valueUsd ≠ some (.double .nan)) :
    (Publication.decide (t.published (Address.key c)) tx now).allowed = true ↔
      p.isActive.truthy = true ∧ p.options.Permits r.defaultChains tx (some now) := by
  obtain ⟨d, hdocument⟩ := hp.document
  rw [hc.published, PolicyRecord.publication?_of_document hdocument]
  by_cases hactive : p.isActive.truthy = true
  · rw [if_pos hactive]
    simpa only [hactive, true_and, Publication.decide] using hp.compiled.allowed_iff hdocument hv
  · simp [hactive, Publication.decide, Decision.allowed]

theorem Holds.decide_allowed_iff (h : r.Holds w t) (ht : t.Valid r) (c : String)
    (hv : tx.valueUsd ≠ some (.double .nan)) (now : Number) :
    (Publication.decide (t.published (Address.key c)) tx now).allowed = true ↔
      ∃ id p a, r.Stores w id p ∧ p.isActive.truthy = true ∧ p.child = .string a ∧
        Address.key a = Address.key c ∧ p.options.Permits r.defaultChains tx (some now) := by
  rcases ht.settled (Address.key c) with hfree | ⟨id, p, hgov⟩
  · rw [hfree.published]
    simp only [Publication.decide, Decision.allowed, Bool.false_eq_true, false_iff]
    rintro ⟨id, p, a, hp, _, hchild, hkey, _⟩
    have hp := h.stores_iff.mp hp
    exact hfree.policy id p hp ((ht.sound id p hp).hasChild_of_key hchild hkey)
  · rw [hgov.decide_allowed_iff (ht.sound id p hgov.policy) hv]
    constructor
    · rintro ⟨hactive, hpermits⟩
      obtain ⟨a, hchild, _, hkey⟩ := hgov.child
      exact ⟨id, p, a, h.stores_iff.mpr hgov.policy, hactive, hchild, hkey, hpermits⟩
    · rintro ⟨id', p', a, hp', hactive, hchild, hkey, hpermits⟩
      have hp' := h.stores_iff.mp hp'
      obtain rfl := hgov.only id' p' hp' ((ht.sound id' p' hp').hasChild_of_key hchild hkey)
      obtain rfl := Option.some.inj (hp'.symm.trans hgov.policy)
      exact ⟨hactive, hpermits⟩

/-- In a reachable world a request of a child is allowed exactly when an active policy with this
child permits it by its present settings, and deploying or calling contracts never is. The value of
the request is not NaN, as no value of a request that was read is. -/
theorem Reachable.authorize_allowed_iff (h : r.Reachable w) (c : String) (tx : Request)
    (hv : tx.valueUsd ≠ some (.double .nan)) (now : Number) : ∃ d pub w',
    (r.shelf.authorize (.string c) tx).perform (w.atTime now) = (.ok (d, pub), w') ∧
      (d.allowed = true ↔ ∃ id p a, r.Stores w id p ∧ p.isActive.truthy = true ∧
        p.child = .string a ∧ Address.key a = Address.key c ∧
        p.options.Permits r.defaultChains tx (some now)) ∧
      (tx.action = .deployContract ∨ tx.action = .smartContract → d.allowed = false) := by
  obtain ⟨t, hholds, ht⟩ := h.consistent
  obtain ⟨w', hauthorize⟩ := (hholds.atTime now).authorize c tx
  have hiff := hholds.decide_allowed_iff ht c hv now
  refine ⟨_, _, w', hauthorize, hiff, fun haction => Bool.eq_false_iff.mpr fun hallowed => ?_⟩
  obtain ⟨_, _, _, _, _, _, _, hpermits⟩ := hiff.mp hallowed
  exact hpermits.not_contract haction

def purchase : Request where
  chain := "8453"
  action := .transfer
  recipient := none
  valueUsd := some 14
  sender := none
  arguments := none

theorem household_allowed : ∃ d pub w',
    (household.shelf.authorize (.string "0xDE709F2102306220921060314715629080E2FB77")
        purchase).perform (evening.atTime 2000) = (.ok (d, pub), w') ∧
      d.allowed = true ∧ ∃ id p, household.Stores evening id p ∧
        p.options.Permits household.defaultChains purchase (some 2000) := by
  obtain ⟨d, pub, w', hauthorize, hiff, _⟩ := Reachable.authorize_allowed_iff household_reachable
    "0xDE709F2102306220921060314715629080E2FB77" purchase (by decide) 2000
  obtain ⟨t, q, hholds, _, hgov, hactive, hdocument⟩ := household_governs
  obtain ⟨_, hdecide⟩ := (hholds.atTime 2000).authorize
    "0xDE709F2102306220921060314715629080E2FB77" purchase
  have hkey : Address.key "0xDE709F2102306220921060314715629080E2FB77" = daughter := by decide
  rw [hkey, hgov.published, PolicyRecord.publication?_of_document hdocument, if_pos hactive,
    hauthorize] at hdecide
  simp only [Prod.mk.injEq, Except.ok.injEq] at hdecide
  have hpurchase : (weeklyDocument.evaluate purchase (some 2000)).allowed = true := by
    decide +kernel
  have hallowed : d.allowed = true := by
    rw [hdecide.1.1]
    exact hpurchase
  obtain ⟨id, p, _, hp, _, _, _, hpermits⟩ := hiff.mp hallowed
  exact ⟨d, pub, w', hauthorize, hallowed, id, p, hp, hpermits⟩

/-- In a reachable world the advisory check and the authoritative one allow the same requests. They
give the same decision, unless the policy that the child is linked to is not active. -/
theorem Reachable.preflight_authorize (h : r.Reachable w) (c : String) (tx : Request)
    (now : Number) : ∃ advised w₁ decided pub w₂,
    (r.preflight (.string c) tx (.number now)).perform w = (.ok advised, w₁) ∧
      (r.shelf.authorize (.string c) tx).perform (w.atTime now) = (.ok (decided, pub), w₂) ∧
      advised.allowed = decided.allowed ∧
      ∃ link, (r.link? (.string c)).perform w = (.ok link, w) ∧
        match link with
        | none => advised = decided
        | some l => ∃ id p, l.policy = .string id ∧ r.Stores w id p ∧
          if p.isActive.truthy then advised = decided
          else advised = .deny .inactive ∧ decided = .deny .noPolicy := by
  obtain ⟨t, hholds, ht⟩ := h.consistent
  obtain ⟨w', hauthorize⟩ := (hholds.atTime now).authorize c tx
  rcases ht.settled (Address.key c) with hfree | ⟨id, p, hgov⟩
  · have hpreflight : (r.preflight (.string c) tx (.number now)).perform w =
        (.ok (.deny .noPolicy), w) := Step.perform_bind_of_ok (hholds.childPolicy?_of_free hfree)
    rw [hfree.published] at hauthorize
    refine ⟨_, _, _, _, _, hpreflight, hauthorize, rfl, _, hholds.link?, ?_⟩
    rw [hfree.link]
    rfl
  · obtain ⟨d, hdocument⟩ := (ht.sound id p hgov.policy).document
    have hpreflight := hholds.preflight hgov hdocument tx now
    have hstored := hholds.stores_iff.mpr hgov.policy
    rw [hgov.published, PolicyRecord.publication?_of_document hdocument] at hauthorize
    by_cases hactive : p.isActive.truthy = true
    · rw [if_pos hactive] at hpreflight hauthorize
      refine ⟨_, _, _, _, _, hpreflight, hauthorize, rfl, _, hholds.link?, ?_⟩
      rw [hgov.link]
      exact ⟨id, p, rfl, hstored, by rw [if_pos hactive]; rfl⟩
    · rw [if_neg hactive] at hpreflight hauthorize
      refine ⟨_, _, _, _, _, hpreflight, hauthorize, rfl, _, hholds.link?, ?_⟩
      rw [hgov.link]
      exact ⟨id, p, rfl, hstored, by rw [if_neg hactive]; exact ⟨rfl, rfl⟩⟩

theorem household_advised : ∃ advised w₁ decided pub w₂,
    (household.preflight (.string daughter) purchase (.number 2000)).perform evening =
        (.ok advised, w₁) ∧
      (household.shelf.authorize (.string daughter) purchase).perform (evening.atTime 2000) =
        (.ok (decided, pub), w₂) ∧ advised = decided := by
  obtain ⟨advised, w₁, decided, pub, w₂, hpreflight, hauthorize, _, link, hlink, hsame⟩ :=
    Reachable.preflight_authorize household_reachable daughter purchase 2000
  obtain ⟨t, q, hholds, _, hgov, hactive, _⟩ := household_governs
  refine ⟨advised, w₁, decided, pub, w₂, hpreflight, hauthorize, ?_⟩
  have hkey : Address.key daughter = daughter := by decide
  rw [hholds.link?, hkey, hgov.link] at hlink
  simp only [Prod.mk.injEq, Except.ok.injEq, and_true] at hlink
  subst hlink
  obtain ⟨id, p, hid, hp, hsame⟩ := hsame
  obtain rfl := Json.string.inj hid
  obtain rfl := Option.some.inj (hgov.policy.symm.trans (hholds.stores_iff.mp hp))
  simpa only [hactive, if_true] using hsame

end Registry

end Allowance
