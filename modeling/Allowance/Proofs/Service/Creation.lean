import Allowance.Proofs.Registry.NewPolicy
import Allowance.Proofs.Service.Agreement

/-! # Creating wallets

A wallet is created for a child all or nothing. The policy is stored before the wallet service is
asked. If no wallet comes of it the policy is deleted, and the sections are exactly as they were
before; if one does, linking the policy cannot fail. Nothing is posted before the fee is paid and
the options of the policy are compiled.
-/

namespace Allowance

open Checked

namespace Service

variable {s : Service} {order : WalletOrder} {client : WalletClient} {w u w₁ w₂ w' : World}
  {t : Registry.Tables} {p q : PolicyRecord} {id name : String} {v : Json}

/-- The fee for a wallet is paid or waived, and the options of its policy compile. -/
structure Earned (s : Service) (order : WalletOrder) (w : World) : Prop where
  paid : ((s.payment.verify order.paymentToken order.development.truthy).perform w).1 = .ok ()
  compiled : ∃ p, s.registry.Drafted order.parent (draftOf order) (w.sources.id w.ids) p

/-- One post is made at most, for a wallet, and only if it is earned. -/
def Posted (s : Service) (order : WalletOrder) (w w' : World) : Prop :=
  ∃ made, w'.calls = w.calls ++ made ∧ made.countP Call.isPost ≤ 1 ∧
    ∀ call ∈ made, call.isPost = true → s.Earned order w ∧
      ∃ client name, s.wallet = some client ∧ call = client.createRequest (.string name)

theorem Posted.of_asks (h : w.Asks (fun call => !call.isPost) u) (hunasked : u.Unasked w') :
    s.Posted order w w' := by
  obtain ⟨made, hcalls, hkind, _⟩ := h.calls
  exact ⟨made, hunasked.calls.trans hcalls, Call.posts_of_none (by simpa using hkind)⟩

theorem Posted.of_called (h : w.Asks (fun call => !call.isPost) u) (hunasked : u.Unasked w₁)
    (hearned : s.Earned order w) (hclient : s.wallet = some client)
    (hcalled : w₁.Called (client.createRequest (.string name)) w₂) (hrest : w₂.Unasked w') :
    s.Posted order w w' := by
  obtain ⟨made, hcalls, hkind, _⟩ := h.calls
  obtain ⟨_, rfl⟩ := hcalled
  refine ⟨_, ?_, Call.posts_of_one (by simpa using hkind) ⟨hearned, client, name, hclient, rfl⟩⟩
  rw [hrest.calls, World.asked, hunasked.calls, hcalls, List.append_assoc]

/-- A wallet was created: the one new policy is that of the order, it is active, and it is linked to
the address that is answered and published for it. -/
def Created (s : Service) (order : WalletOrder) (w : World) (v : Json) (w' : World) : Prop :=
  ∃ t t' address p q now, s.registry.Holds w t ∧ s.registry.Holds w' t' ∧
    v.field "walletAddress" = .ok (.string address) ∧
    v.field "policyId" = .ok (.string (w.sources.id w.ids)) ∧
    s.registry.Drafted order.parent (draftOf order) (w.sources.id w.ids) p ∧
    w.Shows now ∧ q.Agrees { p with child := .string address, updatedAt := .number now } ∧
    t.Added w (w.sources.id w.ids) (Address.key address) q t'

structure AllOrNothing (s : Service) (order : WalletOrder) (w : World) (result : Checked Json)
    (w' : World) : Prop where
  /-- A failure leaves policies, links and published documents exactly as they were. -/
  nothing : ∀ e, result = .error e → s.registry.Unchanged w w'
  all : ∀ v, result = .ok v → s.Created order w v w'
  posts : s.Posted order w w'

section CreateAndLink

variable {parent : Json} {now : Number} {wallet : CreatedWallet} {e : Fault}

def walletRequest (client : WalletClient) (parent : Json) (now : Number) : Call :=
  client.createRequest (.string (customId parent.plain now))

theorem createAndLink_of_wallet (h : s.registry.Holds w t) (ht : t.Valid s.registry)
    (hp : t.policy id = some p) (hwallet : WalletClient.created w.nextReply = .ok wallet) :
    (s.createAndLink client parent (.string id) now).Leads w
      (fun found w' => found.1 = wallet ∧ ∃ u, w.Called (walletRequest client parent now) u ∧
        u.Unasked w' ∧ s.registry.Linked u t (.string id) (.string wallet.address) found.2 w')
      (fun _ _ => False) := by
  obtain ⟨u, hcalled, hcreate⟩ := client.perform_create (customId parent.plain now) w
  rw [hwallet] at hcreate
  have haddress := WalletClient.isAddress_of_created hwallet
  have hlink := ((h.kept hcalled.kept).link_stored ht.sound ht.link_names haddress hp).within
    Registry.link_unasked
  refine .bind (.of_ok hcreate (.bind (.mono hlink ?_ fun _ _ hfalse => hfalse.1)))
  exact fun linked w' hlinked => .pure ⟨rfl, u, hcalled, hlinked.2, hlinked.1⟩

theorem createAndLink_of_error (hfailed : WalletClient.created w.nextReply = .error e) {id : Json} :
    (s.createAndLink client parent id now).Leads w (fun _ _ => False)
      (fun _ w' => w.Called (walletRequest client parent now) w') := by
  obtain ⟨u, hcalled, hcreate⟩ := client.perform_create (customId parent.plain now) w
  rw [hfailed] at hcreate
  exact .bind (.of_error hcreate hcalled)

end CreateAndLink

/-- What remains of a creation once its policy is stored: a wallet is created and linked to it, or
the policy is deleted again. -/
def finish (s : Service) (order : WalletOrder) (client : WalletClient) (p : PolicyRecord) :
    Step Json := do
  let now ← Step.now
  let (created, linked) ← tryCatch (s.createAndLink client order.parent p.id now) fun f => do
    Step.log .error logger ("child wallet creation failed for " ++
      Address.short order.parent.plain ++ ", removing policy " ++ p.id.plain)
    s.registry.delete p.id
    throw f
  match linked.document with
  | none => throw (.misuse .noMember)
  | some document =>
    return .object [
      ("success", .bool true),
      ("walletAddress", .string created.address),
      ("walletId", .string created.id),
      ("policyId", linked.id),
      ("allowedChains", .ofTexts document.allowedChains),
      ("usdLimit", linked.usdLimit)]

/-- The stage of a creation at which the fee is paid and the policy stored. -/
structure Enrolled (s : Service) (order : WalletOrder) (client : WalletClient) (t : Registry.Tables)
    (w u : World) (p : PolicyRecord) (w₁ : World) : Prop where
  holds : s.registry.Holds w t
  valid : t.Valid s.registry
  fresh : t.policy (w.sources.id w.ids) = none
  client : s.wallet = some client
  asks : w.Asks (fun call => !call.isPost) u
  earned : s.Earned order w
  drafted : s.registry.Drafted order.parent (draftOf order) (w.sources.id w.ids) p
  saved : s.registry.Saved u t (w.sources.id w.ids) p w₁
  unasked : u.Unasked w₁

/-- Once a wallet is given, the policy is linked to it. -/
theorem Enrolled.finish_of_wallet (h : s.Enrolled order client t w u p w₁) {wallet : CreatedWallet}
    (hwallet : WalletClient.created w₁.nextReply = .ok wallet) : (s.finish order client p).Leads w₁
      (fun v w' => s.Created order w v w' ∧ s.registry.Consistent w' ∧ s.Posted order w w')
      (fun _ _ => False) := by
  obtain ⟨hid, hchild, _, hactive, document, hdocument⟩ := h.drafted.spec
  obtain ⟨q, hagrees, hq, hstored⟩ := h.saved.stored
  have hvalid := h.valid.create h.fresh hq (hagrees.child.trans hchild)
  have hactive : q.isActive.truthy = true := by rw [hagrees.isActive, hactive]; rfl
  have hdocument := hagrees.document.trans hdocument
  refine .bind (.of_ok Step.perform_now ?_)
  rw [hid]
  refine .bind (.tryCatch (.mono (createAndLink_of_wallet hstored.now hvalid
    Registry.Tables.store_policy_self hwallet) ?_ fun _ _ => False.elim))
  rintro ⟨created, linked⟩ w' ⟨rfl, w₂, hcalled, hrest, hlinked⟩
  dsimp only at hlinked ⊢
  -- Whatever the clock shows after the wallet was asked for, it shows during the creation.
  have hclock : ∀ now, w₂.Shows now → w.Shows now := fun now hnow =>
    h.asks.shows (h.unasked.now.shows (hcalled.shows hnow))
  -- The policy has no child yet, so nothing is detached and the tables only gain it.
  obtain ⟨t', q', now, hafter, hadded, hnow, hagrees', rfl⟩ :=
    (hlinked.mono hclock).added h.valid h.fresh (hagrees.child.trans hchild) hactive hdocument
  simp only [hdocument]
  refine .pure ⟨?_, hlinked.consistent hvalid,
    .of_called h.asks h.unasked.now h.earned h.client hcalled hrest⟩
  exact ⟨t, t', created.address, p, q', now, h.holds, hafter, rfl,
    congrArg Except.ok (hagrees.id.trans hid), h.drafted, hnow,
    hagrees'.trans (hagrees.with_child _ _), hadded⟩

/-- If no wallet is given, the policy is taken back. -/
theorem Enrolled.finish_of_error (h : s.Enrolled order client t w u p w₁) {e : Fault}
    (hfailed : WalletClient.created w₁.nextReply = .error e) : (s.finish order client p).Leads w₁
      (fun _ _ => False) (fun _ w' => s.registry.Unchanged w w' ∧ s.Posted order w w') := by
  obtain ⟨hid, hchild, _⟩ := h.drafted.spec
  refine .bind (.of_ok Step.perform_now ?_)
  rw [hid]
  have hfailed : WalletClient.created { w₁ with times := w₁.times + 1 }.nextReply = .error e :=
    hfailed
  refine .bind (.tryCatch (.mono (createAndLink_of_error hfailed) (fun _ _ => False.elim) ?_))
  -- The handler runs in a world whose files still are those the policy was stored in.
  intro e w₂ hcalled
  have hkept := hcalled.kept
  have hu := h.holds.kept h.asks.toKept
  refine .bind (.of_ok Step.perform_log (.bind (.mono
    (h.saved.undone hu h.fresh hchild ⟨hkept.disk, hkept.shelf⟩) ?_ fun _ _ => False.elim)))
  rintro _ w₃ ⟨hunchanged, hrest⟩
  exact .throw ⟨hunchanged.of_kept h.asks.toKept,
    .of_called h.asks h.unasked.now h.earned h.client hcalled.log hrest⟩

theorem enroll_leads (h : s.registry.Holds w t) (ht : t.Valid s.registry)
    (hfresh : t.policy (w.sources.id w.ids) = none)
    (hasks : w.Asks (fun call => !call.isPost) u)
    (hpaid : ((s.payment.verify order.paymentToken order.development.truthy).perform w).1 = .ok ())
    (hclient : s.wallet = some client) :
    (s.registry.create order.parent (draftOf order) >>= s.finish order client).Leads u
      (fun v w' => s.Created order w v w' ∧ s.registry.Consistent w' ∧ s.Posted order w w')
      (fun _ w' => s.registry.Unchanged w w' ∧ s.Posted order w w') := by
  have hu := h.kept hasks.toKept
  have hid : u.sources.id u.ids = w.sources.id w.ids := by rw [hasks.sources, hasks.ids]
  have hcreate : (s.registry.create order.parent (draftOf order)).Leads u _ _ :=
    hu.create.within Registry.create_unasked
  rw [hid] at hcreate
  refine .bind (.mono hcreate ?_ ?_)
  · rintro p w₁ ⟨⟨hdrafted, hsaved⟩, hunasked⟩
    have henrolled : s.Enrolled order client t w u p w₁ :=
      ⟨h, ht, hfresh, hclient, hasks, ⟨hpaid, p, hdrafted⟩, hdrafted, hsaved, hunasked⟩
    cases hcreated : WalletClient.created w₁.nextReply with
    | ok wallet =>
      exact .mono (henrolled.finish_of_wallet hcreated) (fun _ _ hdone => hdone)
        fun _ _ => False.elim
    | error e =>
      exact .mono (henrolled.finish_of_error hcreated) (fun _ _ => False.elim)
        fun _ _ hundone => hundone
  · rintro e w₁ ⟨hkept, hunasked⟩
    exact ⟨h.unchanged_of_kept (Frame.kept.trans hasks.toKept hkept), .of_asks hasks hunasked⟩

theorem createWallet_leads (h : s.registry.Holds w t) (ht : t.Valid s.registry)
    (hfresh : t.policy (w.sources.id w.ids) = none) : (s.createWallet order).Leads w
      (fun v w' => s.Created order w v w' ∧ s.registry.Consistent w' ∧ s.Posted order w w')
      (fun _ w' => s.registry.Unchanged w w' ∧ s.Posted order w w') := by
  have hquiet : ∀ u, w.Asks (fun call => !call.isPost) u →
      s.registry.Unchanged w u ∧ s.Posted order w u :=
    fun u hasks => ⟨h.unchanged_of_kept hasks.toKept, .of_asks hasks (Frame.unasked.refl u)⟩
  unfold createWallet
  cases haddress : Address.isAddressValue order.parent with
  | false => exact .bind (.throw (hquiet w ((Frame.asks _).refl w)))
  | true =>
    simp only [Bool.not_true, Bool.false_eq_true, if_false]
    cases hverify : (s.payment.verify order.paymentToken order.development.truthy).perform w with
    | mk paid u =>
      have hasks := PaymentConfig.verify_within.after hverify
      cases paid with
      | error e => exact .bind (.of_error hverify (hquiet u hasks))
      | ok _ =>
        refine .bind (.of_ok hverify ?_)
        cases hclient : s.wallet with
        | none => exact .throw (hquiet u hasks)
        | some client => exact enroll_leads h ht hfresh hasks (by rw [hverify]) hclient

theorem preflight_kept {child payload : Json} : (s.preflight child payload).Within .kept :=
  .bind (fun w => (requestOf_within w).toKept) fun _ => Registry.preflight_kept

def Fresh (s : Service) (w : World) : Prop := ∀ p, ¬ s.registry.Stores w (w.sources.id w.ids) p

/-- The worlds that operations of the registry and of the service lead to from blank records, as
long as new ids are fresh. In between, anything may happen that leaves what is written alone. -/
inductive Reachable (s : Service) : World → Prop
  | blank {w : World} : s.registry.Blank w → Reachable s w
  | operation {w : World} (o : Operation) :
      Reachable s w → s.registry.FreshFor w o → Reachable s (s.registry.after w o)
  | createWallet {w : World} (order : WalletOrder) :
      Reachable s w → s.Fresh w → Reachable s ((s.createWallet order).perform w).2
  | sign {w : World} (payload : Json) : Reachable s w → Reachable s ((s.sign payload).perform w).2
  | preflight {w : World} (child payload : Json) :
      Reachable s w → Reachable s ((s.preflight child payload).perform w).2
  | elsewhere {w w' : World} :
      Reachable s w → w'.disk = w.disk → w'.shelf = w.shelf → Reachable s w'

theorem Fresh.policy_eq_none (h : s.Fresh w) (hholds : s.registry.Holds w t) :
    t.policy (w.sources.id w.ids) = none :=
  Option.eq_none_iff_forall_ne_some.mpr fun p hp => h p (hholds.stores_iff.mpr hp)

theorem Reachable.consistent (h : s.Reachable w) : s.registry.Consistent w := by
  have hconsistent : ∀ {w w' : World}, s.registry.Consistent w → w.Kept w' →
      s.registry.Consistent w' := fun ⟨t, hholds, ht⟩ hkept => ⟨t, hholds.kept hkept, ht⟩
  induction h with
  | blank hblank => exact ⟨_, hblank.holds, Registry.Tables.valid_blank⟩
  | operation o _ hfresh ih =>
    obtain ⟨t, hholds, ht⟩ := ih
    exact hholds.after_consistent ht hfresh
  | createWallet order _ hfresh ih =>
    obtain ⟨t, hholds, ht⟩ := ih
    exact (createWallet_leads hholds ht (hfresh.policy_eq_none hholds)).world
      (fun _ _ hcreated => hcreated.2.1) fun _ _ hfailed => ⟨t, hholds.of_unchanged hfailed.1, ht⟩
  | sign payload _ ih => exact hconsistent ih (sign_outcome s payload _).kept
  | preflight child payload _ ih => exact hconsistent ih (preflight_kept _)
  | elsewhere _ hdisk hshelf ih => exact hconsistent ih ⟨hdisk, hshelf⟩

/-- Creating a wallet for a child is all or nothing, whatever the payment service and the wallet
service reply. -/
theorem Reachable.createWallet_allOrNothing (h : s.Reachable w) (hfresh : s.Fresh w)
    (order : WalletOrder) : s.AllOrNothing order w ((s.createWallet order).perform w).1
      ((s.createWallet order).perform w).2 := by
  obtain ⟨t, hholds, ht⟩ := h.consistent
  have hleads : (s.createWallet order).Leads w (fun v w' => s.AllOrNothing order w (.ok v) w')
      (fun e w' => s.AllOrNothing order w (.error e) w') := by
    refine .mono (createWallet_leads hholds ht (hfresh.policy_eq_none hholds)) ?_ ?_
    · rintro v w' ⟨hcreated, _, hposted⟩
      exact ⟨nofun, fun _ hv => Except.ok.inj hv ▸ hcreated, hposted⟩
    · rintro e w' ⟨hunchanged, hposted⟩
      exact ⟨fun _ _ => hunchanged, nofun, hposted⟩
  exact hleads.result

theorem createWallet_succeeds (h : s.registry.Holds w t) (ht : t.Valid s.registry)
    (hid : w.sources.id w.ids = id) (hfresh : t.policy id = none)
    (hparent : Address.isAddressValue order.parent = true) (hclient : s.wallet = some client)
    (hpaid : (s.payment.verify order.paymentToken order.development.truthy).perform w = (.ok (), u))
    {now : Number} (hnow : w.sources.time w.times = now)
    (hblank : (draftOf order).toRecord order.parent .null (.number now) = .ok p)
    {document : Document}
    (hdocument : s.registry.compile { p with id := .string id } = .ok document)
    (hv : PolicyRecord.toJson { p with id := .string id, document := some document } = .ok v)
    {wallet : CreatedWallet} (hwallet : WalletClient.created u.nextReply = .ok wallet) :
    ∃ v w', (s.createWallet order).perform w = (.ok v, w') := by
  subst hid
  have hasks := PaymentConfig.verify_within.after hpaid
  have hcreate := ((h.kept hasks.toKept).create_saved
    (by rw [hasks.sources, hasks.times]; exact hnow) (by rw [hasks.sources, hasks.ids])
    hparent hblank hdocument hv).within Registry.create_unasked
  have hleads : (s.createWallet order).Leads w (fun _ _ => True) fun _ _ => False := by
    unfold createWallet
    simp only [hparent, hclient, Bool.not_true, Bool.false_eq_true, if_false]
    refine .bind (.of_ok hpaid (.bind (.mono hcreate ?_ fun _ _ hfalse => hfalse.1)))
    rintro q w₁ ⟨⟨hq, hsaved⟩, hunasked⟩
    have hdrafted : s.registry.Drafted order.parent (draftOf order) (w.sources.id w.ids) q :=
      ⟨.number now, p, document, hblank, hdocument, hq⟩
    have henrolled : s.Enrolled order client t w u q w₁ :=
      ⟨h, ht, hfresh, hclient, hasks, ⟨by rw [hpaid], q, hdrafted⟩, hdrafted, hsaved, hunasked⟩
    have hreply : WalletClient.created w₁.nextReply = .ok wallet := by
      rw [World.nextReply, hunasked.sources, hunasked.replies]
      exact hwallet
    exact .mono (henrolled.finish_of_wallet hreply) (fun _ _ _ => trivial) fun _ _ => False.elim
  exact hleads.succeeds

section Household

open Registry (mother morning weeklyRecord weeklyDocument household_blank)

def allowance : WalletOrder where
  parent := .string mother
  restrictToBase := .bool true
  maxUsd := .int 15
  development := .bool true

def allowanceRecord : PolicyRecord :=
  { weeklyRecord with restrictToBase := .bool true, allowedChains := [] }

def newWallet : String :=
  "\x7b\"id\": \"first\", \"address\": \"0xde709f2102306220921060314715629080e2fb77\"\x7d"

def opening : World := reopened morning
  ⟨fun _ => 1000, fun _ => "weekly", fun _ => .response 201 newWallet, fun _ => .failure ""⟩

theorem allowance_compile : Registry.household.compile
    { allowanceRecord with id := .string "weekly" } = .ok weeklyDocument := by
  refine Options.compile_eq_ok.mpr ⟨_, Options.check_eq_ok.mpr
    ⟨gives_iff.mp ?_, gives_iff.mp ?_, gives_iff.mp ?_, gives_iff.mp ?_, ⟨_, rfl, ?_⟩, rfl⟩, rfl⟩
  all_goals decide +kernel

theorem allowance_toRecord : (draftOf allowance).toRecord (.string mother) .null (.number 1000) =
    .ok allowanceRecord := rfl

theorem allowance_toJson : ∃ v, PolicyRecord.toJson { allowanceRecord with
    id := .string "weekly", document := some weeklyDocument } = .ok v := by
  have hblocked := PolicyRecord.blockedWords_actions Action.mandatory
  have hchains : Json.sorted [] = .ok [] := Json.sorted_eq_ok.mpr ⟨rfl, List.mergeSort_nil⟩
  simp [PolicyRecord.toJson, allowanceRecord, weeklyRecord, hblocked, hchains]

theorem newWallet_created :
    ∃ wallet, WalletClient.created (.response 201 newWallet) = .ok wallet := by
  have hsome : (WalletClient.created (.response 201 newWallet)).toOption.isSome = true := by
    decide +kernel
  cases hcreated : WalletClient.created (.response 201 newWallet) with
  | ok wallet => exact ⟨wallet, rfl⟩
  | error e => simp [hcreated, Except.toOption] at hsome

theorem allowance_succeeds {w : World} {t : Registry.Tables} (h : household.registry.Holds w t)
    (ht : t.Valid household.registry) (hfresh : t.policy "weekly" = none)
    (hid : w.sources.id w.ids = "weekly") (hnow : w.sources.time w.times = 1000)
    (hreply : w.nextReply = .response 201 newWallet) :
    ∃ v w', (household.createWallet allowance).perform w = (.ok v, w') := by
  obtain ⟨wallet, hwallet⟩ := newWallet_created
  obtain ⟨_, hv⟩ := allowance_toJson
  have hparent : Address.isAddressValue allowance.parent = true := by decide
  rw [← hreply] at hwallet
  exact createWallet_succeeds h ht hid hfresh hparent rfl rfl hnow allowance_toRecord
    allowance_compile hv hwallet

theorem allowance_created : ∃ v w',
    (household.createWallet allowance).perform opening = (.ok v, w') ∧
      household.Created allowance opening v w' := by
  have hblank : household.registry.Blank opening := ⟨household_blank.separate,
    household_blank.policies, household_blank.links, household_blank.published⟩
  obtain ⟨v, w', hcreate⟩ :=
    allowance_succeeds hblank.holds Registry.Tables.valid_blank rfl rfl rfl rfl
  have hfresh : household.Fresh opening := by
    intro p hp
    cases hblank.holds.stores_iff.mp hp
  have hall := Reachable.createWallet_allOrNothing (.blank hblank) hfresh allowance
  rw [hcreate] at hall
  exact ⟨v, w', hcreate, hall.all v rfl⟩

end Household

end Service

end Allowance
