import Allowance.Proofs.Service.Partners
import Allowance.Proofs.Service.Price

/-! # How other services fail

The payment service, the wallet service and the price source may answer anything, or nothing. Each
of them has faults of its own for its failures. What escapes as another fault are the answers that
claim success and are not the objects that the claim would need, and prices beyond all doubles.
-/

namespace Allowance

open Checked

/-- The reply comes from no address at all, or reports success with a text that denotes no object.
-/
def Reply.IsNoPayment (reply : Reply) : Prop :=
  reply = .badUrl ∨
    ∃ text, reply = .response 200 text ∧ ¬ ∃ fields, Json.read text = .ok (.object fields)

namespace PaymentConfig

variable {config : PaymentConfig} {reply : Reply} {secret s : String} {w : World}

def Undeclared (f : Fault) : Prop := ∀ e, f ≠ .payment e

def answer : Reply → Checked Json
  | .unreachable reason => .error (.payment (.unreachable reason))
  | .badUrl => .error .badUrl
  | .response status text =>
    if status = 404 then .error (.payment .unknownToken)
    else if status = 200 then Json.parse text
    else .error (.payment (.badStatus status text))

def settle (v : Json) : Checked Unit := do
  let status ← v.field "status"
  if status.same completed then return () else .error (.payment (.notCompleted status))

theorem perform_lookUp {token : Json} : (config.lookUp secret token).perform w =
    (answer w.nextReply, w.asked (.get (trimSlashes config.apiBase ++ "/payment_intents/" ++
      token.plain) (secret, "") config.timeout)) := by
  unfold lookUp
  refine (Step.perform_bind_of_ok Step.perform_ask).trans ?_
  cases w.nextReply with
  | unreachable reason => rfl
  | badUrl => rfl
  | response status text =>
    by_cases hunknown : status = 404
    · simp [answer, hunknown]
    by_cases hfound : status = 200
    · simp [answer, hfound]
    · simp [answer, hunknown, hfound]

theorem lookUp_bind {token : Json} {f : Json → Step Unit} (hf : ∀ v, (f v).Logs (settle v)) :
    ((config.lookUp secret token >>= f).perform w).1 = answer w.nextReply >>= settle := by
  rw [Step.perform_bind, perform_lookUp]
  cases answer w.nextReply with
  | error e => rfl
  | ok v => exact (hf v).result _

/-- Without a key or a token nothing is looked up; otherwise the reply decides. -/
theorem verify_result (config : PaymentConfig) (token : Option String) (development : Bool)
    (w : World) : ((config.verify (.ofText? token) development).perform w).1 =
      match config.secretKey.filter (!·.isEmpty), token.filter (!·.isEmpty) with
      | none, _ => if development then .ok () else .error (.payment .notConfigured)
      | some _, none => .error (.payment .noToken)
      | some _, some _ => answer w.nextReply >>= settle := by
  unfold verify
  cases config.secretKey.filter (!·.isEmpty) with
  | none => cases development <;> rfl
  | some secret =>
    cases token with
    | none => rfl
    | some s =>
      cases hempty : s.isEmpty with
      | true => simp [Json.ofText?, Json.truthy, hempty, Option.filter]
      | false =>
        simp only [Json.ofText?, Json.truthy, hempty, Option.filter, Bool.not_false,
          Bool.not_true, Bool.false_eq_true, if_true, if_false]
        refine lookUp_bind fun v => .bind (.lift _) fun status => ?_
        cases status.same completed with
        | true => exact .bind (.lift (firstParts (.string s) 10)) fun _ => .log
        | false => exact fun w => ⟨w.log, rfl⟩

theorem fails_settle_iff {v : Json} : Fails Undeclared (settle v) ↔ v.fields? = none := by
  rw [settle, fails_bind, Json.fails_field_iff, or_iff_left]
  · simp [Undeclared]
  · rintro ⟨status, -, hfails⟩
    revert hfails
    split <;> simp [Undeclared]

theorem fails_answer_settle_iff :
    Fails Undeclared (answer reply >>= settle) ↔ reply.IsNoPayment := by
  unfold Reply.IsNoPayment
  cases reply with
  | unreachable reason => simp [answer, Undeclared]
  | badUrl => simp [answer, Undeclared]
  | response status text =>
    by_cases hfound : status = 200
    · subst hfound
      cases hread : Json.read text with
      | error e => cases e <;>
          simp [answer, Json.parse, hread, Undeclared, Fault.ofReadError]
      | ok v => cases v <;> simp [answer, Json.parse, hread, fails_settle_iff, Json.fields?]
    · by_cases hunknown : status = 404 <;> simp [answer, hunknown, hfound, Undeclared]

theorem fails_verify_iff (config : PaymentConfig) (token : Option String) (development : Bool)
    (w : World) :
    Fails Undeclared ((config.verify (.ofText? token) development).perform w).1 ↔
      (config.secretKey.filter (!·.isEmpty)).isSome ∧ (token.filter (!·.isEmpty)).isSome ∧
        w.nextReply.IsNoPayment := by
  rw [verify_result]
  cases config.secretKey.filter (!·.isEmpty) with
  | none => cases development <;> simp [Undeclared]
  | some secret =>
    cases token.filter (!·.isEmpty) with
    | none => simp [Undeclared]
    | some s => simp [fails_answer_settle_iff]

end PaymentConfig

/-- The reply comes from no address at all, or reports success with a text that is nested too deep
or denotes a value that is no object. -/
def Reply.IsNoReport (reply : Reply) : Prop :=
  reply = .badUrl ∨
    ∃ status text, reply = .response status text ∧ (status = 200 ∨ status = 201) ∧
      (Json.read text = .error .tooDeep ∨ ∃ v, Json.read text = .ok v ∧ v.fields? = none)

theorem Reply.isNoReport_response {status : Int} {text : String} :
    (Reply.response status text).IsNoReport ↔ (status = 200 ∨ status = 201) ∧
      (Json.read text = .error .tooDeep ∨ ∃ v, Json.read text = .ok v ∧ v.fields? = none) := by
  constructor
  · rintro (h | ⟨_, _, ⟨⟩, h⟩)
    · cases h
    · exact h
  · exact fun h => Or.inr ⟨status, text, rfl, h⟩

namespace WalletClient

variable {client : WalletClient} {reply : Reply} {path text : String} {v : Json} {w : World}

def Undeclared (f : Fault) : Prop := ∀ e, f ≠ .wallet e

theorem fails_answer_bind_iff {α : Type} {f : Json → Checked α}
    (hf : ∀ v, Fails Undeclared (f v) ↔ v.fields? = none) :
    Fails Undeclared (answer path reply >>= f) ↔ reply.IsNoReport := by
  rw [fails_bind]
  cases reply with
  | unreachable reason => simp [answer, Undeclared, Reply.IsNoReport]
  | badUrl => simp [answer, Undeclared, Reply.IsNoReport]
  | response status text =>
    rw [Reply.isNoReport_response]
    by_cases hrefused : status = 403
    · simp [answer, hrefused, Undeclared]
    by_cases haccepted : status = 200 ∨ status = 201
    · simp only [answer, hrefused, haccepted, if_false, if_true, true_and]
      cases Json.read text with
      | ok v => simp [hf]
      | error e => cases e <;> simp [Undeclared]
    · simp [answer, hrefused, haccepted, Undeclared]

theorem fails_create_iff (client : WalletClient) (name : String) (w : World) :
    Fails Undeclared ((client.create (.string name)).perform w).1 ↔ w.nextReply.IsNoReport := by
  obtain ⟨w', -, hperform⟩ := perform_create client name w
  rw [hperform]
  refine fails_answer_bind_iff fun v => ?_
  rw [walletOf, fails_bind, Json.fails_field_iff, or_iff_left]
  · simp [Undeclared]
  · rintro ⟨address, haddress, hfails⟩
    obtain ⟨fields, rfl, -⟩ := Json.field_eq_ok.mp haddress
    revert hfails
    simp only [Json.field, ok_bind]
    split
    · split
      · simp [Undeclared]
      · split <;> simp [Undeclared]
    · simp [Undeclared]

theorem fails_sign_iff (client : WalletClient) (c : String) (chain transaction : Json) (w : World) :
    Fails Undeclared ((client.sign (.string c) chain transaction).perform w).1 ↔
      w.nextReply.IsNoReport := by
  obtain ⟨w', -, hperform⟩ := perform_sign client c chain transaction w
  rw [hperform]
  refine fails_answer_bind_iff fun v => ?_
  rw [fails_bind, Json.fails_field_iff, or_iff_left]
  · simp [Undeclared]
  · rintro ⟨given, -, hfails⟩
    revert hfails
    split <;> simp [Undeclared]

end WalletClient

namespace PriceConfig

variable {config : PriceConfig} {answer : Json} {w : World}

def Undeclared (f : Fault) : Prop := ∀ e, f ≠ .price e

/-- The answer is no object, or what it gives for the asset is none, or a price above all doubles.
-/
def IsNoQuote (config : PriceConfig) (answer : Json) : Prop :=
  answer.truthy = true ∧ (answer.fields? = none ∨ ∃ found,
    answer.fieldOr config.asset (.object []) = .ok found ∧ (found.fields? = none ∨ ∃ price n,
      found.field "usd" = .ok price ∧ price.number? = some n ∧ n.le 0 = false ∧
        n.toDouble? = none))

theorem fails_accept_iff {price : Json} : Fails Undeclared (config.accept answer price) ↔
    ∃ n, price.number? = some n ∧ n.le 0 = false ∧ n.toDouble? = none := by
  unfold accept
  split
  · simp_all [Undeclared]
  · split
    · simp_all [Undeclared]
    · split <;> simp_all [Undeclared]

theorem undeclared_misuse (m : Misuse) : Undeclared (.misuse m) := nofun

theorem fails_judge_iff : Fails Undeclared (config.judge answer) ↔ config.IsNoQuote answer := by
  unfold judge IsNoQuote priceIn
  simp only [fails_bind, fails_accept_iff, Json.fails_fieldOr_iff, Json.fails_field_iff, bind_eq_ok]
  cases htruthy : answer.truthy with
  | false => simp [Json.fieldOr, Json.field, Json.fields?, Json.number?]
  | true =>
    simp only [if_true, true_and, undeclared_misuse, and_true]
    constructor
    · rintro ((hanswer | ⟨found, hfound, hnone⟩) | ⟨price, ⟨found, hfound, hprice⟩, n, hn⟩)
      · exact Or.inl hanswer
      · exact Or.inr ⟨found, hfound, Or.inl hnone⟩
      · exact Or.inr ⟨found, hfound, Or.inr ⟨price, n, hprice, hn⟩⟩
    · rintro (hanswer | ⟨found, hfound, hnone | ⟨price, n, hprice, hn⟩⟩)
      · exact Or.inl (Or.inl hanswer)
      · exact Or.inl (Or.inr ⟨found, hfound, hnone⟩)
      · exact Or.inr ⟨price, ⟨found, hfound, hprice⟩, n, hn⟩

theorem fails_usdPrice_iff (config : PriceConfig) (w : World) :
    Fails Undeclared (config.usdPrice.perform w).1 ↔ ∃ answer,
      firstData w.sources.quote w.quotes 3 = some answer ∧ config.IsNoQuote answer := by
  obtain ⟨last, hasked, log, hperform⟩ := perform_usdPrice config w
  rw [hperform, hasked.firstData_eq]
  cases w.sources.quote (w.quotes + last) with
  | failure reason => simp [Quote.found, conclude, Except.toOption, Undeclared]
  | data answer => simp [Quote.found, conclude, Except.toOption, fails_judge_iff]

end PriceConfig

namespace Service

/-- What escapes from the calls to other services as a fault that the service does not declare. Of
the check of a payment, it is a reply of success without an object, if the payment is looked up at
all; of the calls to the wallet service, a reply of success with another value than an object; and
of the question for a price, the first data that are no quote. -/
theorem undeclared_faults (w : World) :
    (∀ (config : PaymentConfig) (token : Option String) (development : Bool),
      Fails PaymentConfig.Undeclared ((config.verify (.ofText? token) development).perform w).1 ↔
        (config.secretKey.filter (!·.isEmpty)).isSome ∧ (token.filter (!·.isEmpty)).isSome ∧
          w.nextReply.IsNoPayment) ∧
    (∀ (client : WalletClient) (name : String),
      Fails WalletClient.Undeclared ((client.create (.string name)).perform w).1 ↔
        w.nextReply.IsNoReport) ∧
    (∀ (client : WalletClient) (wallet : String) (chain transaction : Json),
      Fails WalletClient.Undeclared
          ((client.sign (.string wallet) chain transaction).perform w).1 ↔
        w.nextReply.IsNoReport) ∧
    ∀ config : PriceConfig, Fails PriceConfig.Undeclared (config.usdPrice.perform w).1 ↔
      ∃ answer, PriceConfig.firstData w.sources.quote w.quotes 3 = some answer ∧
        config.IsNoQuote answer :=
  ⟨fun config token development => PaymentConfig.fails_verify_iff config token development w,
    fun client name => WalletClient.fails_create_iff client name w,
    fun client wallet chain transaction =>
      WalletClient.fails_sign_iff client wallet chain transaction w,
    fun config => PriceConfig.fails_usdPrice_iff config w⟩

/-- A world in which every service reports success with the same text, and the market gives an array
for a price. -/
def careless (text : String) : World where
  sources := ⟨fun _ => 0, fun _ => "", fun _ => .response 200 text, fun _ => .data (.array [.null])⟩

/-- Success with something broken instead of a payment, or with an array, is no declared failure. -/
theorem careless_undeclared :
    Fails PaymentConfig.Undeclared
      ((PaymentConfig.verify { secretKey := some "sk" } (.string "pi_1") false).perform
        (careless "bad")).1 ∧
    Fails WalletClient.Undeclared
      ((WalletClient.create ⟨"wk", {}⟩ (.string "child")).perform (careless "[]")).1 ∧
    Fails WalletClient.Undeclared
      ((WalletClient.sign ⟨"wk", {}⟩ (.string "0xab") (.string "1") (.object [])).perform
        (careless "[]")).1 ∧
    Fails PriceConfig.Undeclared ((PriceConfig.usdPrice {}).perform (careless "")).1 := by
  have hbad : (Json.read "bad").isOk = false := by decide +kernel
  have harray : Json.read "[]" = .ok (.array []) := rfl
  have hreport : (careless "[]").nextReply.IsNoReport :=
    Reply.isNoReport_response.mpr ⟨Or.inl rfl, Or.inr ⟨_, harray, rfl⟩⟩
  refine ⟨?_, (WalletClient.fails_create_iff _ _ _).mpr hreport,
    (WalletClient.fails_sign_iff _ _ _ _ _).mpr hreport,
    (PriceConfig.fails_usdPrice_iff _ _).mpr ⟨_, rfl, rfl, Or.inl rfl⟩⟩
  refine (PaymentConfig.fails_verify_iff _ (some "pi_1") _ _).mpr ⟨by decide, by decide, ?_⟩
  refine Or.inr ⟨_, rfl, ?_⟩
  rintro ⟨fields, hread⟩
  rw [hread] at hbad
  cases hbad

end Service

end Allowance
