import Allowance.Proofs.Service.Partners
import Allowance.Proofs.World.State

/-! # From payloads to requests

A payload becomes a request in four parts: its recipient, its action, its value and the rest. Only
the value may take more than the payload, as amounts of wei are priced. What is signed is put
together from the payload anew.
-/

namespace Allowance

open Checked

/-- Fields that hold null are as good as absent. -/
theorem lookup_present {fields : Json.Fields} (h : (fields.map (·.1)).Nodup) (name : String) :
    ((fields.filter fun field => !field.2.same .null).lookup name).getD .null =
      (fields.lookup name).getD .null := by
  induction fields with
  | nil => rfl
  | cons field fields ih =>
    obtain ⟨other, v⟩ := field
    rw [List.map_cons, List.nodup_cons] at h
    by_cases hother : name = other
    · subst hother
      have hnone : fields.lookup name = none := by
        refine List.lookup_eq_none_iff.mpr fun field hfield => ?_
        have hne : name ≠ field.1 := fun heq => h.1 (List.mem_map.mpr ⟨field, hfield, heq.symm⟩)
        simpa using hne
      have hrest := ih h.2
      rw [hnone] at hrest
      cases v <;> simp [Json.same, hrest]
    · have hrest := ih h.2
      cases v <;> simp [lookup_cons_if, Json.same, hrest, hother]

/-- The value names an address, or none: then it counts as false or is `0x`. -/
def Json.IsRecipient (v : Json) (address : Option String) : Prop :=
  match address with
  | some a => v = .string a
  | none => v.truthy = false ∨ v = .string "0x"

namespace Request

variable {r : Request}

theorem ofJson_object {fields : Json.Fields} (h : ofJson (.object fields) = .ok r) :
    checkChain ((fields.lookup "chainId").getD .null) = .ok r.chain ∧
    checkAction ((fields.lookup "type").getD .null) = .ok r.action ∧
    checkAddress .badRecipient ((fields.lookup "to").getD .null) = .ok r.recipient ∧
    checkAddress .badSender ((fields.lookup "from").getD .null) = .ok r.sender ∧
    checkValue ((fields.lookup "valueUsd").getD .null) = .ok r.valueUsd ∧
    checkArguments ((fields.lookup "arguments").getD .null) = .ok r.arguments := by
  simp only [ofJson, Json.field, ok_bind] at h
  obtain ⟨chain, hchain, h⟩ := bind_eq_ok.mp h
  obtain ⟨action, haction, h⟩ := bind_eq_ok.mp h
  obtain ⟨recipient, hrecipient, h⟩ := bind_eq_ok.mp h
  obtain ⟨sender, hsender, h⟩ := bind_eq_ok.mp h
  obtain ⟨value, hvalue, h⟩ := bind_eq_ok.mp h
  obtain ⟨arguments, harguments, h⟩ := bind_eq_ok.mp h
  obtain rfl := pure_eq_ok.mp h
  exact ⟨hchain, haction, hrecipient, hsender, hvalue, harguments⟩

theorem checkAddress_eq_ok {refuse : Json → RequestError} {v : Json} {address : Option String}
    (h : checkAddress refuse v = .ok address) :
    v.truthy = false ∧ address = none ∨ ∃ a, v = .string a ∧ address = some a := by
  unfold checkAddress at h
  split at h
  · rename_i hfalse
    exact Or.inl ⟨by simpa using hfalse, (Except.ok.inj h).symm⟩
  · split at h
    · split at h
      · exact Or.inr ⟨_, rfl, (Except.ok.inj h).symm⟩
      · cases h
    · cases h

theorem checkAction_word (a : Action) : checkAction (.string a.word) = .ok a := by
  cases a <;> rfl

theorem checkValue_number {n : Number} {value : Option Number}
    (h : checkValue (.number n) = .ok value) : value = some n := by
  obtain ⟨found, hfinite, h⟩ := bind_eq_ok.mp h
  cases found with
  | none => cases h
  | some m =>
    obtain ⟨hm, _⟩ := Json.number_of_finite? hfinite
    obtain rfl := Json.number.inj hm
    by_cases hnegative : n.lt 0 = true
    · simp [hnegative, RequestError.throw] at h
    · simp only [hnegative] at h
      exact (pure_eq_ok.mp h).symm

theorem classify_transfer {recipient data : Json} (h : classify recipient data = .ok .transfer) :
    recipient.truthy = true ∧ recipient.same (.string "0x") = false := by
  unfold classify at h
  by_cases hnone : (!recipient.truthy || recipient.same (.string "0x")) = true
  · simp only [hnone, if_true] at h
    cases h
  · simpa using hnone

end Request

namespace Service

variable {s : Service} {payload wei : Json} {w w' : World} {r : Request}

/-- The name of the action that a payload gives, or of the one that it looks like. -/
def actionOf (payload recipient : Json) : Checked Json := do
  let given := firstPresent (← payload.field "transactionType") (← payload.field "type")
  if given.truthy then return given
  else return .string (← Request.classify recipient (← payload.field "data")).word

/-- The value in dollars that a payload gives, or that of the wei that it gives instead. -/
def valueOf (s : Service) (payload : Json) : Step Json := do
  match ← payload.field "valueUsd", ← payload.field "valueWei" with
  | .null, .null => return .null
  | .null, wei => s.valueOfWei wei
  | usd, _ => return usd

def requestWith (payload recipient action value : Json) : Checked Request := do
  Request.ofJson (.object [
    ("chainId", ← payload.field "chainId"),
    ("type", action),
    ("to", recipient),
    ("valueUsd", value),
    ("from", ← payload.field "from"),
    ("arguments", ← payload.field "arguments")])

theorem requestOf_eq : s.requestOf payload = (do
    let recipient ← recipientOf payload
    let action ← actionOf payload recipient
    let value ← s.valueOf payload
    requestWith payload recipient action value) := by
  cases payload with
  | object fields =>
    have hfield (name : String) : (Json.object fields).field name =
      .ok ((fields.lookup name).getD .null) := rfl
    simp only [requestOf, actionOf, valueOf, requestWith, hfield, Step.lift_ok, pure_bind, ok_bind]
    generalize (fields.lookup "valueUsd").getD .null = usd
    generalize (fields.lookup "valueWei").getD .null = wei
    congr 1
    funext recipient
    split
    · cases usd <;> cases wei <;> rfl
    · simp only [Step.lift_bind, bind_assoc]
      congr 1
      funext action
      cases usd <;> cases wei <;> rfl
  | _ => rfl

theorem valueOfWei_within (wei : Json) : (s.valueOfWei wei).Within .prices := by
  unfold valueOfWei
  split
  · exact .throw _
  · split
    · exact .map (PriceConfig.weiToUsd_within _) _
    · exact .throw _
    · exact .throw _

theorem requestOf_within : (s.requestOf payload).Within .prices := by
  rw [requestOf_eq]
  refine .bind (.lift _) fun recipient => .bind (.lift _) fun action => .bind ?_ fun value =>
    .lift _
  refine .bind (.lift _) fun usd => .bind (.lift _) fun wei => ?_
  split
  · exact .pure _
  · exact valueOfWei_within _
  · exact .pure _

theorem requestOf_eq_ok (h : (s.requestOf payload).perform w = (.ok r, w')) :
    ∃ recipient action value, recipientOf payload = .ok recipient ∧
      actionOf payload recipient = .ok action ∧ (s.valueOf payload).perform w = (.ok value, w') ∧
      requestWith payload recipient action value = .ok r := by
  rw [requestOf_eq] at h
  obtain ⟨recipient, _, hlift, h⟩ := Step.perform_bind_eq_ok.mp h
  obtain ⟨hrecipient, rfl⟩ := Step.perform_lift_eq_ok.mp hlift
  obtain ⟨action, _, hlift, h⟩ := Step.perform_bind_eq_ok.mp h
  obtain ⟨haction, rfl⟩ := Step.perform_lift_eq_ok.mp hlift
  obtain ⟨value, _, hvalue, h⟩ := Step.perform_bind_eq_ok.mp h
  obtain ⟨hr, rfl⟩ := Step.perform_lift_eq_ok.mp h
  exact ⟨recipient, action, value, hrecipient, haction, hvalue, hr⟩

theorem valueOf_wei {value : Json} (husd : payload.field "valueUsd" = .ok .null)
    (hwei : payload.field "valueWei" = .ok wei) (hnull : wei ≠ .null)
    (h : (s.valueOf payload).perform w = (.ok value, w')) : ∃ prices amount price d,
      s.prices = some prices ∧ wei.toInt = .ok amount ∧
      prices.usdPrice.perform w = (.ok price, w') ∧
      Ether.weiToUsd (.int amount) (.number (.double price)) = .ok d ∧
      value = .number (.double d) := by
  unfold valueOf at h
  rw [husd, hwei, Step.lift_ok, Step.lift_ok, pure_bind, pure_bind] at h
  have h : (s.valueOfWei wei).perform w = (.ok value, w') := by
    cases wei <;> first | exact absurd rfl hnull | exact h
  unfold valueOfWei at h
  split at h
  · cases h
  · rename_i prices hprices
    split at h
    · rename_i amount hamount
      obtain ⟨d, _, hdollars, h⟩ := Step.perform_bind_eq_ok.mp h
      obtain ⟨hvalue, rfl⟩ := Prod.mk.inj h
      obtain ⟨price, _, hprice, hlift⟩ := Step.perform_bind_eq_ok.mp hdollars
      obtain ⟨hd, rfl⟩ := Step.perform_lift_eq_ok.mp hlift
      exact ⟨prices, amount, price, d, hprices, hamount, hprice, hd, (Except.ok.inj hvalue).symm⟩
    · cases h
    · cases h

theorem transactionOf_object (fields : Json.Fields) :
    ∃ transaction, transactionOf (.object fields) = .ok transaction := by
  have hfield (name : String) : (Json.object fields).field name =
    .ok ((fields.lookup name).getD .null) := rfl
  simp only [transactionOf, hfield, ok_bind, List.mapM_cons, List.mapM_nil]
  split
  · exact ⟨_, rfl⟩
  · exact ⟨_, rfl⟩

/-- The fields of a payload that are signed, if it carries no transaction of its own. -/
def signedFields : List String := ["to", "data", "valueWei"]

/-- A payload without a transaction has its own fields signed, and nothing else. -/
theorem field_transactionOf {given transaction : Json}
    (hgiven : payload.field "transaction" = .ok given) (hfalse : given.truthy = false)
    (h : transactionOf payload = .ok transaction) (name : String) : transaction.field name =
      if name ∈ signedFields then payload.field name else .ok .null := by
  obtain ⟨fields, rfl, hlookup⟩ := Json.field_eq_ok.mp hgiven
  have hfield (name : String) : (Json.object fields).field name =
    .ok ((fields.lookup name).getD .null) := rfl
  simp only [transactionOf, hfield, hlookup, hfalse, ok_bind, List.mapM_cons, List.mapM_nil] at h
  obtain rfl := pure_eq_ok.mp h
  have hnames : ([("to", (fields.lookup "to").getD .null),
      ("data", (fields.lookup "data").getD .null),
      ("valueWei", (fields.lookup "valueWei").getD .null)].map (·.1)).Nodup := by
    simp
  simp only [Json.field, lookup_present hnames, lookup_cons_if, signedFields, List.mem_cons,
    List.not_mem_nil, or_false, List.lookup_nil]
  by_cases hto : name = "to"
  · simp [hto]
  by_cases hdata : name = "data"
  · simp [hdata]
  by_cases hwei : name = "valueWei" <;> simp [hto, hdata, hwei]

theorem requestWith_eq_ok {recipient action value : Json}
    (h : requestWith payload recipient action value = .ok r) :
    Request.checkAddress .badRecipient recipient = .ok r.recipient ∧
      Request.checkAction action = .ok r.action ∧ Request.checkValue value = .ok r.valueUsd := by
  obtain ⟨chain, _, h⟩ := bind_eq_ok.mp h
  obtain ⟨sender, _, h⟩ := bind_eq_ok.mp h
  obtain ⟨arguments, _, h⟩ := bind_eq_ok.mp h
  obtain ⟨_, haction, hrecipient, _, hvalue, _⟩ := Request.ofJson_object h
  exact ⟨hrecipient, haction, hvalue⟩

theorem recipientOf_checked {recipient : Json} {refuse : Json → RequestError}
    {address : Option String} (hrecipient : recipientOf payload = .ok recipient)
    (haddress : Request.checkAddress refuse recipient = .ok address) :
    ∃ given, payload.field "to" = .ok given ∧ given.IsRecipient address := by
  obtain ⟨given, hgiven, h⟩ := bind_eq_ok.mp hrecipient
  obtain rfl := pure_eq_ok.mp h
  refine ⟨given, hgiven, ?_⟩
  by_cases hpresent : (given.truthy && !given.same (.string "0x")) = true
  · rw [if_pos hpresent] at haddress
    obtain ⟨hfalse, _⟩ | ⟨a, rfl, rfl⟩ := Request.checkAddress_eq_ok haddress
    · simp [hfalse] at hpresent
    · rfl
  · rw [if_neg hpresent] at haddress
    obtain rfl := Except.ok.inj haddress
    rw [Bool.and_eq_true, not_and_or, Bool.not_eq_true, Bool.not_eq_true, Bool.not_eq_false',
      Json.same_string] at hpresent
    exact hpresent

theorem recipientOf_present {recipient : Json} (hrecipient : recipientOf payload = .ok recipient)
    (htruthy : recipient.truthy = true) : payload.field "to" = .ok recipient := by
  obtain ⟨given, hgiven, h⟩ := bind_eq_ok.mp hrecipient
  obtain rfl := pure_eq_ok.mp h
  split at htruthy
  · rename_i hpresent
    rw [if_pos hpresent, hgiven]
  · cases htruthy

theorem actionOf_unnamed {recipient action transactionType type : Json} {a : Action}
    (haction : actionOf payload recipient = .ok action)
    (hgiven : payload.field "transactionType" = .ok transactionType)
    (htype : payload.field "type" = .ok type) (hunnamed : transactionType.truthy = false)
    (huntyped : type.truthy = false) (ha : Request.checkAction action = .ok a) :
    ∃ data, payload.field "data" = .ok data ∧ Request.classify recipient data = .ok a := by
  unfold actionOf at haction
  rw [hgiven, htype] at haction
  simp only [ok_bind, firstPresent, hunnamed, huntyped, Bool.false_eq_true, if_false] at haction
  obtain ⟨data, hdata, haction⟩ := bind_eq_ok.mp haction
  obtain ⟨b, hb, haction⟩ := bind_eq_ok.mp haction
  obtain rfl := pure_eq_ok.mp haction
  obtain rfl := Except.ok.inj ((Request.checkAction_word b).symm.trans ha)
  exact ⟨data, hdata, hb⟩

end Service

end Allowance
