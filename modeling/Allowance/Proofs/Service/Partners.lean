import Allowance.Proofs.Json.Access
import Allowance.Proofs.World.Frame
import Allowance.Service.Basic

/-! # What is asked of other services

The wallet service gets one post for each wallet and for each signature, and what becomes of it is a
function of the one reply. The price source and the payment service are only asked, and nothing
that is written changes.
-/

namespace Allowance

namespace Call

variable {P : Call → Prop} {made : List Call}

/-- Calls of which none is a post meet whatever is asked of the posts among them. -/
theorem posts_of_none (h : ∀ call ∈ made, call.isPost = false) :
    made.countP isPost ≤ 1 ∧ ∀ call ∈ made, call.isPost = true → P call := by
  have hnone : made.countP isPost = 0 := List.countP_eq_zero.mpr (by simpa using h)
  refine ⟨by omega, fun call hcall hpost => ?_⟩
  rw [h call hcall] at hpost
  cases hpost

theorem posts_of_one (h : ∀ call ∈ made, call.isPost = false) {call : Call} (hcall : P call) :
    (made ++ [call]).countP isPost ≤ 1 ∧
      ∀ other ∈ made ++ [call], other.isPost = true → P other := by
  have hnone : made.countP isPost = 0 := List.countP_eq_zero.mpr (by simpa using h)
  refine ⟨?_, fun other hother hpost => ?_⟩
  · rw [List.countP_append, hnone, Nat.zero_add]
    exact List.countP_le_length
  · rcases List.mem_append.mp hother with hother | hother
    · rw [h other hother] at hpost
      cases hpost
    · rwa [List.mem_singleton.mp hother]

end Call

namespace World

def asked (w : World) (call : Call) : World :=
  { w with calls := w.calls ++ [call], replies := w.replies + 1 }

def nextReply (w : World) : Reply := w.sources.reply w.replies

def Called (w : World) (call : Call) (w' : World) : Prop := ∃ log, w' = { w.asked call with log }

end World

variable {w w' : World} {call : Call} {kind : Call → Bool} {c : String}

@[simp] theorem Step.perform_ask : (ask call).perform w = (.ok w.nextReply, w.asked call) := rfl

theorem World.Called.shows {now : Number} (h : w.Called call w') (hnow : w'.Shows now) :
    w.Shows now := by
  obtain ⟨_, rfl⟩ := h
  exact hnow

theorem World.Called.log (h : w.Called call w') {log : List LogEntry} :
    w.Called call { w' with log } := by
  obtain ⟨_, rfl⟩ := h
  exact ⟨log, rfl⟩

theorem World.Called.kept (h : w.Called call w') : w.Kept w' := by
  obtain ⟨_, rfl⟩ := h
  exact ⟨rfl, rfl⟩

/-- Before a step that makes other calls only, the next reply is the same as after it. -/
theorem World.Asks.nextReply (h : w.Asks (fun call => !call.isRequest) w') :
    w'.nextReply = w.nextReply := by
  obtain ⟨made, _, hkind, hreplies⟩ := h.calls
  have hnone : made.countP Call.isRequest = 0 :=
    List.countP_eq_zero.mpr fun call hcall => by simpa using hkind call hcall
  rw [World.nextReply, World.nextReply, h.sources, hreplies, hnone, Nat.add_zero]

namespace Step.Within

theorem ask (hkind : kind call = true) (hrequest : call.isRequest = true) :
    (Step.ask call).Within (.asks kind) := fun w =>
  ⟨⟨rfl, rfl⟩, rfl, rfl, rfl, [call], rfl, by simpa using hkind, by simp [World.asked, hrequest]⟩

theorem askPrice {asset currency : String} (hkind : kind (.price asset currency) = true) :
    (Step.askPrice asset currency).Within (.asks kind) := fun _ =>
  ⟨⟨rfl, rfl⟩, rfl, rfl, rfl, [.price asset currency], rfl, by simpa using hkind, rfl⟩

theorem tell (hkind : kind call = true) (hrequest : call.isRequest = false) :
    (Step.tell call).Within (.asks kind) := fun w =>
  ⟨⟨rfl, rfl⟩, rfl, rfl, rfl, [call], rfl, by simpa using hkind, by simp [hrequest]; rfl⟩

theorem log {level : Level} {logger message : String} :
    (Step.log level logger message).Within (.asks kind) := fun w =>
  ⟨⟨rfl, rfl⟩, rfl, rfl, rfl, [], by simp, by simp, rfl⟩

end Step.Within

abbrev Frame.prices : Frame := .asks fun call => !call.isRequest

namespace PriceConfig

variable {config : PriceConfig}

theorem fetch_within (pauses : List Nat) : (config.fetch pauses).Within .prices := by
  induction pauses with
  | nil =>
    refine .bind (.askPrice rfl) fun quote => ?_
    cases quote with
    | data v => exact .pure _
    | failure reason => exact .pure _
  | cons pause rest ih =>
    refine .bind (.askPrice rfl) fun quote => ?_
    cases quote with
    | data v => exact .pure _
    | failure reason => exact .bind (.tell rfl rfl) fun _ => ih

theorem usdPrice_within : config.usdPrice.Within .prices := by
  refine .bind (fetch_within pauses) fun found => ?_
  cases found with
  | error reason => exact .bind .log fun _ => .throw _
  | ok answer =>
    refine .bind (.lift _) fun price => ?_
    split
    · exact .throw _
    · refine .refuse ?_
      split
      · exact .pure _
      · exact .throw _

theorem weiToUsd_within (wei : Json) : (config.weiToUsd wei).Within .prices :=
  .bind usdPrice_within fun _ => .lift _

end PriceConfig

def Reply.Accepts (reply : Reply) (v : Json) : Prop :=
  ∃ status text, reply = .response status text ∧ (status = 200 ∨ status = 201) ∧
    Json.read text = .ok v

def Reply.Refuses (reply : Reply) (text : String) : Prop := reply = .response 403 text

def Reply.Signs (reply : Reply) (signature : String) : Prop :=
  ∃ v given, reply.Accepts v ∧ v.field "signature" = .ok given ∧ given.truthy = true ∧
    signature = given.plain

namespace WalletClient

variable {client : WalletClient} {path text : String} {v body chain transaction : Json}
  {reply : Reply}

def request (client : WalletClient) (path : String) (body : Json) : Call :=
  .post (trimSlashes client.config.baseUrl ++ path) body
    [("X-API-Key", client.key), ("Content-Type", "application/json")] client.config.timeout

def answer (path : String) : Reply → Checked Json
  | .unreachable reason => .error (.wallet (.unreachable path reason))
  | .badUrl => .error .badUrl
  | .response status text =>
    if status = 403 then .error (.wallet (.rejected path text))
    else if status = 200 ∨ status = 201 then
      match Json.read text with
      | .ok v => .ok v
      | .error .tooDeep => .error (.misuse .tooDeep)
      | .error _ => .error (.wallet (.notJson path))
    else .error (.wallet (.badStatus status path text))

theorem perform_post : (client.post path body).perform w =
    (answer path w.nextReply, w.asked (client.request path body)) := by
  unfold post
  refine (Step.perform_bind_of_ok Step.perform_ask).trans ?_
  cases hreply : w.nextReply with
  | unreachable reason => rfl
  | badUrl => rfl
  | response status text =>
    by_cases hrefused : status = 403
    · simp [answer, hrefused, request]
    by_cases haccepted : status = 200 ∨ status = 201
    · have hstatus : (status != 200 && status != 201) = false := by
        rcases haccepted with rfl | rfl <;> rfl
      simp only [answer, hrefused, haccepted, hstatus, if_false, if_true, Bool.false_eq_true]
      cases Json.read text with
      | ok v => rfl
      | error e => cases e <;> rfl
    · have hstatus : (status != 200 && status != 201) = true := by
        simpa [not_or] using haccepted
      simp [answer, hrefused, haccepted, hstatus, request]

/-- What is done with the answer to a post comes after the one call. -/
theorem perform_post_bind {α : Type} {f : Json → Step α} {g : Json → Checked α}
    (hf : ∀ v, (f v).Logs (g v)) (w : World) :
    ∃ w', w.Called (client.request path body) w' ∧
      (client.post path body >>= f).perform w = (answer path w.nextReply >>= g, w') := by
  rw [Step.perform_bind, perform_post]
  cases answer path w.nextReply with
  | error e => exact ⟨_, ⟨w.log, rfl⟩, rfl⟩
  | ok v =>
    obtain ⟨log, hlogs⟩ := hf v (w.asked (client.request path body))
    exact ⟨_, ⟨log, rfl⟩, hlogs⟩

theorem perform_log_post_bind {α : Type} {level : Level} {logger message : String}
    {f : Json → Step α} {g : Json → Checked α} (hf : ∀ v, (f v).Logs (g v)) (w : World) :
    ∃ w', w.Called (client.request path body) w' ∧
      (Step.log level logger message >>= fun _ => client.post path body >>= f).perform w =
        (answer path w.nextReply >>= g, w') := by
  rw [Step.perform_bind, Step.perform_log]
  obtain ⟨_, ⟨log, rfl⟩, hperform⟩ :=
    perform_post_bind hf { w with log := w.log ++ [⟨level, logger, message⟩] }
  exact ⟨_, ⟨log, rfl⟩, hperform⟩

theorem answer_eq_ok : answer path reply = .ok v ↔ reply.Accepts v := by
  unfold Reply.Accepts
  cases reply with
  | unreachable reason => simp [answer]
  | badUrl => simp [answer]
  | response status text =>
    simp only [answer, Reply.response.injEq]
    constructor
    · intro h
      split at h
      · cases h
      · split at h
        · rename_i haccepted
          refine ⟨status, text, ⟨rfl, rfl⟩, haccepted, ?_⟩
          split at h <;> simp_all
        · cases h
    · rintro ⟨_, _, ⟨rfl, rfl⟩, haccepted, hread⟩
      have hrefused : status ≠ 403 := by omega
      simp [hrefused, haccepted, hread]

theorem answer_rejected {other : String} :
    answer path reply = .error (.wallet (.rejected other text)) ↔
      other = path ∧ reply.Refuses text := by
  unfold Reply.Refuses
  cases reply with
  | unreachable reason => simp [answer]
  | badUrl => simp [answer]
  | response status body =>
    by_cases hrefused : status = 403
    · simp [answer, hrefused, eq_comm]
    · simp only [answer, hrefused, if_false, Reply.response.injEq, false_and, and_false, iff_false]
      split
      · split <;> simp
      · simp

def signRequest (client : WalletClient) (wallet chain transaction : Json) : Call :=
  client.request "/transactions/sign" (.object [
    ("walletAddress", wallet),
    ("chainId", chain),
    ("transaction", transaction)])

def signature (reply : Reply) : Checked String := do
  let v ← answer "/transactions/sign" reply
  let given ← v.field "signature"
  if given.truthy then return given.plain else .error (.wallet (.noSignature v))

theorem perform_sign (client : WalletClient) (c : String) (chain transaction : Json) (w : World) :
    ∃ w', w.Called (client.signRequest (.string c) chain transaction) w' ∧
      (client.sign (.string c) chain transaction).perform w = (signature w.nextReply, w') := by
  refine perform_post_bind (fun v => .bind (.lift _) fun given => ?_) w
  cases given.truthy <;>
    exact .refuse (.bind (.lift (Address.shortValue (.string c))) fun _ =>
      .bind .log fun _ => .pure _)

theorem signature_eq_ok {given : String} : signature reply = .ok given ↔ reply.Signs given := by
  unfold signature Reply.Signs
  simp only [Checked.bind_eq_ok, answer_eq_ok]
  constructor
  · rintro ⟨v, haccepts, found, hfound, h⟩
    split at h
    · rename_i htruthy
      exact ⟨v, found, haccepts, hfound, htruthy, (Checked.pure_eq_ok.mp h).symm⟩
    · cases h
  · rintro ⟨v, found, haccepts, hfound, htruthy, rfl⟩
    exact ⟨v, haccepts, found, hfound, by rw [if_pos htruthy]; rfl⟩

theorem signature_rejected : signature reply = .error (.wallet (.rejected path text)) ↔
    path = "/transactions/sign" ∧ reply.Refuses text := by
  rw [← answer_rejected]
  unfold signature
  cases answer "/transactions/sign" reply with
  | error e => rw [Checked.error_bind, Except.error.injEq, Except.error.injEq]
  | ok v =>
    simp only [Checked.ok_bind, reduceCtorEq, iff_false]
    cases hfound : v.field "signature" with
    | error e => simp [Json.field_eq_error hfound]
    | ok found =>
      simp only [Checked.ok_bind]
      split <;> simp [pure, Except.pure]

def createRequest (client : WalletClient) (customId : Json) : Call :=
  client.request "/wallets" (.object [
    ("type", .string "EVM"),
    ("pregenId", .object [("customId", customId)])])

def walletOf (v : Json) : Checked CreatedWallet := do
  let address ← v.field "address"
  let id ← v.field "id"
  match address with
  | .string address =>
    if !Address.isAddress address then .error (.wallet (.noAddress v))
    else if !id.truthy then .error (.wallet (.noId v))
    else
      let type ← v.field "type"
      return { id := id.plain, address, type := if type.truthy then type else .string "EVM" }
  | _ => .error (.wallet (.noAddress v))

def created (reply : Reply) : Checked CreatedWallet := answer "/wallets" reply >>= walletOf

theorem perform_create (client : WalletClient) (name : String) (w : World) :
    ∃ w', w.Called (client.createRequest (.string name)) w' ∧
      (client.create (.string name)).perform w = (created w.nextReply, w') := by
  unfold create
  rw [firstParts, Step.lift_ok, pure_bind]
  refine perform_log_post_bind (fun v =>
    .bind (.lift _) fun address => .bind (.lift _) fun id => ?_) w
  cases address with
  | string address => exact .refuse (.refuse (.bind .log fun _ => .bind (.lift _) fun _ => .pure _))
  | _ => exact .throw _

theorem isAddress_of_created {wallet : CreatedWallet} (h : created reply = .ok wallet) :
    Address.isAddress wallet.address = true := by
  obtain ⟨v, _, h⟩ := Checked.bind_eq_ok.mp h
  obtain ⟨address, _, h⟩ := Checked.bind_eq_ok.mp h
  obtain ⟨id, _, h⟩ := Checked.bind_eq_ok.mp h
  split at h
  · split at h
    · cases h
    · rename_i haddress
      split at h
      · cases h
      · obtain ⟨type, _, h⟩ := Checked.bind_eq_ok.mp h
        obtain rfl := Checked.pure_eq_ok.mp h
        simpa using haddress
  · cases h

end WalletClient

namespace PaymentConfig

variable {config : PaymentConfig} {token : Json}

theorem lookUp_within {secret : String} :
    (config.lookUp secret token).Within (.asks fun call => !call.isPost) := by
  refine .bind (.ask rfl rfl) fun reply => ?_
  cases reply with
  | unreachable reason => exact .throw _
  | badUrl => exact .throw _
  | response status text => exact .refuse (.refuse (.lift _))

theorem verify_within {development : Bool} :
    (config.verify token development).Within (.asks fun call => !call.isPost) := by
  unfold verify
  split
  · split
    · exact .log
    · exact .throw _
  · exact .refuse (.bind lookUp_within fun _ => .bind (.lift _) fun _ =>
      .refuse (.bind (.lift _) fun _ => .log))

end PaymentConfig

end Allowance
