import Allowance.Proofs.Service.Signing

/-! # What is signed and what was checked

The request that is checked and the transaction that is signed are put together from the same
payload, but not in the same way. A payload without a transaction of its own has its recipient, data
and wei signed. Its recipient is the one that was checked, and so are its kind and its value as far
as the payload leaves them to be found out.
-/

namespace Allowance

open Checked

namespace Service

variable {s : Service} {payload transaction : Json} {w : World} {c : String} {r : Request}
  {client : WalletClient} {pub : Publication}

/-- A transaction is posted for a signature on the strength of an allowed request. -/
def Posts (s : Service) (payload : Json) (w : World) (r : Request) (transaction : Json) : Prop :=
  ∃ client c pub made, s.Cleared payload w client c r pub ∧
    ((s.sign payload).perform w).2.calls = w.calls ++ made ∧
    client.signRequest (.string c) (.string r.chain) transaction ∈ made

theorem signRequest_inj {wallet chain other : Json}
    (h : client.signRequest wallet chain transaction = client.signRequest wallet chain other) :
    transaction = other := by
  simpa [WalletClient.signRequest, WalletClient.request] using h

theorem Cleared.posts (h : s.Cleared payload w client c r pub)
    (htransaction : transactionOf payload = .ok transaction) :
    s.Posts payload w r transaction := by
  have houtcome := sign_outcome s payload w
  refine ⟨client, c, pub, ?_⟩
  generalize (s.sign payload).perform w = result at houtcome ⊢
  obtain ⟨result, w'⟩ := result
  cases houtcome with
  | failed hno _ _ => exact absurd h.poses (hno c r _)
  | answered hposes hwallet _ _ =>
    obtain ⟨rfl, rfl, rfl⟩ := hposes.unique h.poses
    cases h.client.symm.trans (hwallet h.decision)
  | posted hposes _ hclient htransaction' hmade _ =>
    obtain ⟨rfl, rfl, rfl⟩ := hposes.unique h.poses
    obtain rfl := Option.some.inj (hclient.symm.trans h.client)
    obtain rfl := Except.ok.inj (htransaction'.symm.trans htransaction)
    exact ⟨_, h, hmade.calls, List.mem_append_right _ (List.mem_singleton.mpr rfl)⟩

theorem Posts.transactionOf_eq (h : s.Posts payload w r transaction) :
    transactionOf payload = .ok transaction := by
  obtain ⟨client, c, pub, made, hcleared, hcalls, hmem⟩ := h
  have houtcome := sign_outcome s payload w
  generalize (s.sign payload).perform w = result at houtcome hcalls
  obtain ⟨result, w'⟩ := result
  cases houtcome with
  | failed hno _ _ => exact absurd hcleared.poses (hno c r _)
  | answered hposes hwallet _ _ =>
    obtain ⟨rfl, rfl, rfl⟩ := hposes.unique hcleared.poses
    cases hcleared.client.symm.trans (hwallet hcleared.decision)
  | posted hposes _ hclient htransaction hmade hposts =>
    obtain ⟨rfl, rfl, rfl⟩ := hposes.unique hcleared.poses
    obtain rfl := Option.some.inj (hclient.symm.trans hcleared.client)
    obtain rfl := List.append_cancel_left (hmade.calls.symm.trans hcalls)
    rcases List.mem_append.mp hmem with hmem | hmem
    · cases hposts _ hmem
    · rw [signRequest_inj (List.mem_singleton.mp hmem), htransaction]

/-- The transaction consists of the payload's own fields and agrees with the request. -/
structure Agrees (s : Service) (payload : Json) (w : World) (r : Request) (transaction : Json) :
    Prop where
  /-- The recipient, the data and the wei are those of the payload, and there is nothing else. -/
  own : ∀ name, transaction.field name =
    if name ∈ signedFields then payload.field name else .ok .null
  /-- The recipient is the one that was checked. -/
  recipient : ∃ recipient, transaction.field "to" = .ok recipient ∧
    recipient.IsRecipient r.recipient
  /-- A payload that does not name its kind has no data signed. -/
  plain : ∀ transactionType type, payload.field "transactionType" = .ok transactionType →
    payload.field "type" = .ok type → transactionType.truthy = false → type.truthy = false →
    ∃ recipient data, transaction.field "to" = .ok recipient ∧
      transaction.field "data" = .ok data ∧ Request.classify recipient data = .ok .transfer
  /-- Wei that a payload gives no value for are checked at their price. -/
  priced : ∀ wei, payload.field "valueUsd" = .ok .null → transaction.field "valueWei" = .ok wei →
    wei ≠ .null → ∃ prices amount price d u, s.prices = some prices ∧ wei.toInt = .ok amount ∧
      prices.usdPrice.perform w = (.ok price, u) ∧
      Ether.weiToUsd (.int amount) (.number (.double price)) = .ok d ∧
      r.valueUsd = some (.double d)

/-- A transfer that is posted agrees with the request that was allowed, unless the payload carries a
transaction of its own. -/
theorem Posts.agrees (h : s.Posts payload w r transaction) (hr : r.action = .transfer)
    {given : Json} (hgiven : payload.field "transaction" = .ok given)
    (hnone : given.truthy = false) : s.Agrees payload w r transaction := by
  have hown := field_transactionOf hgiven hnone h.transactionOf_eq
  have hto : transaction.field "to" = payload.field "to" := by rw [hown]; rfl
  have hdata : transaction.field "data" = payload.field "data" := by rw [hown]; rfl
  have hwei : transaction.field "valueWei" = payload.field "valueWei" := by rw [hown]; rfl
  obtain ⟨client, c, pub, _, hcleared, _⟩ := h
  have hrequest : (s.requestOf payload).perform w = (.ok r, _) :=
    Prod.ext hcleared.poses.request rfl
  obtain ⟨recipient, action, value, hrecipient, haction, hvalue, hwith⟩ := requestOf_eq_ok hrequest
  obtain ⟨hcheckedTo, hcheckedAction, hcheckedValue⟩ := requestWith_eq_ok hwith
  refine ⟨hown, ?_, ?_, ?_⟩
  · rw [hto]
    exact recipientOf_checked hrecipient hcheckedTo
  · intro transactionType type hgiven htype hunnamed huntyped
    rw [hr] at hcheckedAction
    obtain ⟨data, hfield, hclassify⟩ :=
      actionOf_unnamed haction hgiven htype hunnamed huntyped hcheckedAction
    have hpresent := recipientOf_present hrecipient (Request.classify_transfer hclassify).1
    exact ⟨recipient, data, hto.trans hpresent, hdata.trans hfield, hclassify⟩
  · intro wei husd hfield hnull
    rw [hwei] at hfield
    obtain ⟨prices, amount, price, d, hprices, hamount, hprice, hd, rfl⟩ :=
      valueOf_wei husd hfield hnull hvalue
    exact ⟨prices, amount, price, d, _, hprices, hamount, hprice, hd,
      Request.checkValue_number hcheckedValue⟩

section Household

open Registry (evening daughter mother weeklyDocument household_governs)

def household : Service where
  registry := Registry.household
  payment := {}
  prices := some {}
  wallet := some { key := "key", config := {} }

def reopened (w : World) (sources : Sources) : World :=
  { sources, disk := w.disk, shelf := w.shelf }

theorem holds_reopened {registry : Registry} {t : Registry.Tables} (h : registry.Holds w t)
    (sources : Sources) : registry.Holds (reopened w sources) t :=
  h.congr rfl rfl

/-- What was written by the evening, and an ether that costs two thousand dollars. -/
def market : World := reopened evening ⟨fun _ => 2000, fun _ => "monthly", fun _ => .badUrl,
  fun _ => .data (.object [("ethereum", .object [("usd", .int 2000)])])⟩

theorem market_cleared (hwallet : payload.field "walletAddress" = .ok (.string daughter))
    (hrequest : ((household.requestOf payload).perform market).1 = .ok r)
    (hallowed : weeklyDocument.evaluate r (some 2000) = .allow) :
    ∃ client pub, household.Cleared payload market client daughter r pub := by
  obtain ⟨t, q, hholds, _, hgov, hactive, hdocument⟩ := household_governs
  have hmarket : Registry.household.Holds market t := holds_reopened hholds _
  have hkey : Address.key daughter = daughter := by decide
  have hentry := hmarket.entry (Address.key daughter)
  rw [hkey, hgov.published, PolicyRecord.publication?_of_document hdocument, if_pos hactive,
    ← hkey] at hentry
  exact ⟨_, _, rfl, ⟨hwallet, by decide, hrequest, hentry⟩, hallowed⟩

theorem market_posts (hwallet : payload.field "walletAddress" = .ok (.string daughter))
    (hrequest : ((household.requestOf payload).perform market).1.gives r = true)
    (hallowed : weeklyDocument.evaluate r (some 2000) = .allow)
    (htransaction : transactionOf payload = .ok transaction) :
    household.Posts payload market r transaction := by
  obtain ⟨client, pub, hcleared⟩ := market_cleared hwallet (gives_iff.mp hrequest) hallowed
  exact hcleared.posts htransaction

def gift : Request where
  chain := "8453"
  action := .transfer
  recipient := some mother
  valueUsd := some 14
  sender := none
  arguments := none

def giving (more : Json.Fields) : Json := .object ([
  ("walletAddress", .string daughter),
  ("chainId", .string "8453"),
  ("to", .string mother),
  ("valueUsd", .int 14)] ++ more)

theorem gift_agrees : ∃ transaction, household.Posts (giving []) market gift transaction ∧
    household.Agrees (giving []) market gift transaction := by
  have hposts : household.Posts (giving []) market gift (.object [("to", .string mother)]) :=
    market_posts rfl (by decide +kernel) (by decide +kernel) rfl
  have hgiven : (giving []).field "transaction" = .ok .null := rfl
  exact ⟨_, hposts, Posts.agrees hposts rfl hgiven rfl⟩

def stranger : String := "0x27b1fdb04752bbc536007a920d24acb045561c26"

def callData : Json := .string "0xa9059cbb"

/-- What is signed can differ from what was checked. -/
theorem posts_disagrees :
    (∃ transaction, household.Posts
        (giving [("transaction", .object [("to", .string stranger)])]) market gift transaction ∧
      transaction.field "to" = .ok (.string stranger) ∧
      gift.recipient = some mother ∧ Address.key stranger ≠ Address.key mother) ∧
    (∃ transaction, household.Posts
        (giving [("transactionType", .string "TRANSFER"), ("data", callData)]) market gift
        transaction ∧
      transaction.field "to" = .ok (.string mother) ∧ transaction.field "data" = .ok callData ∧
      Request.classify (.string mother) callData = .ok .smartContract) ∧
    (∃ transaction prices price usd,
      household.Posts (giving [("valueWei", .int 1000000000000000000)]) market gift transaction ∧
      transaction.field "valueWei" = .ok (.int 1000000000000000000) ∧
      household.prices = some prices ∧ (prices.usdPrice.perform market).1 = .ok price ∧
      Ether.weiToUsd (.int 1000000000000000000) (.number (.double price)) = .ok usd ∧
      gift.valueUsd = some 14 ∧ Number.same 14 (.double usd) = false) := by
  refine ⟨⟨_, market_posts rfl (by decide +kernel) (by decide +kernel) rfl, rfl, rfl, by decide⟩,
    ⟨_, market_posts rfl (by decide +kernel) (by decide +kernel) rfl, rfl, rfl, rfl⟩, ?_⟩
  have hprice : ((PriceConfig.usdPrice {}).perform market).1.gives (.ofInt 2000) = true := by
    decide +kernel
  exact ⟨_, {}, .ofInt 2000, .ofInt 2000,
    market_posts rfl (by decide +kernel) (by decide +kernel) rfl, rfl, rfl, gives_iff.mp hprice,
    gives_iff.mp (by decide +kernel), rfl, by decide +kernel⟩

end Household

end Service

end Allowance
