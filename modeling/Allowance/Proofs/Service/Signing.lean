import Allowance.Proofs.Registry.Authority
import Allowance.Proofs.Service.Payload

/-! # Signing

A payload comes to one of three ends: it fails before a decision is made, it is answered by a
decision, or an allowed request is posted to the wallet service, whose reply decides what is
answered. From these ends it is read off that signing fails closed.
-/

namespace Allowance

open Checked

namespace World

structure Made (w : World) (made : List Call) (w' : World) : Prop extends Kept w w' where
  calls : w'.calls = w.calls ++ made

variable {w w' u : World} {made : List Call} {call : Call}

theorem Made.nil : w.Made [] w := ⟨⟨rfl, rfl⟩, by simp⟩

theorem Made.congr (h : w.Made made u) (hkept : u.Kept w') (hcalls : w'.calls = u.calls) :
    w.Made made w' :=
  ⟨⟨hkept.disk.trans h.disk, hkept.shelf.trans h.shelf⟩, hcalls.trans h.calls⟩

theorem Made.called (h : w.Made made u) (hcalled : u.Called call w') :
    w.Made (made ++ [call]) w' := by
  obtain ⟨_, rfl⟩ := hcalled
  refine ⟨⟨h.disk, h.shelf⟩, ?_⟩
  simp [asked, h.calls]

end World

/-- The answer is a denial and carries no signature. -/
def Json.Denies (v : Json) : Prop :=
  ∃ fields, v = .object fields ∧ fields.lookup "success" = some (.bool false) ∧
    fields.lookup "allowed" = some (.bool false) ∧ fields.lookup "signature" = none

namespace Service

variable {s : Service} {payload transaction : Json} {w w' : World} {c : String} {r : Request}
  {found : Option Publication} {client : WalletClient}

/-- A payload amounts to a request of a wallet, and what is published for the wallet is found. -/
structure Poses (s : Service) (payload : Json) (w : World) (c : String) (r : Request)
    (found : Option Publication) : Prop where
  wallet : payload.field "walletAddress" = .ok (.string c)
  address : Address.isAddress c = true
  request : ((s.requestOf payload).perform w).1 = .ok r
  found : (s.registry.shelf.entry? (Address.key c)).perform w = (.ok found, w)

theorem Poses.unique {c' : String} {r' : Request} {found' : Option Publication}
    (h : s.Poses payload w c r found) (h' : s.Poses payload w c' r' found') :
    c = c' ∧ r = r' ∧ found = found' := by
  obtain rfl := Json.string.inj (Except.ok.inj (h.wallet.symm.trans h'.wallet))
  refine ⟨rfl, Except.ok.inj (h.request.symm.trans h'.request), ?_⟩
  exact Except.ok.inj (Prod.mk.inj (h.found.symm.trans h'.found)).1

def answerFields (d : Decision) (signature : Json.Fields) (found : Option Publication) :
    Json.Fields :=
  [("success", .bool d.allowed)] ++ d.fields ++ signature ++ policyFields found

def answerOf (d : Decision) (signature : Json.Fields) (found : Option Publication) : Json :=
  .object (answerFields d signature found)

/-- What comes of a signature that was asked for: a refusal is answered as a denial, and every other
failure stays one. -/
def signed : Checked String → Checked (Decision × Json.Fields)
  | .ok signature => .ok (.allow, [("signature", .string signature)])
  | .error (.wallet (.rejected path text)) =>
    .ok (.deny (.rejected (WalletError.rejected path text).message), [])
  | .error e => .error e

def decision (w : World) (found : Option Publication) (r : Request) : Decision :=
  Publication.decide found r (w.sources.time w.times)

/-- A reply to the request for a signature gives one, refuses it, or is a failure. -/
theorem signed_cases (reply : Reply) :
    (∃ given, reply.Signs given ∧ (∀ text, ¬ reply.Refuses text) ∧
      signed (WalletClient.signature reply) = .ok (.allow, [("signature", .string given)])) ∨
    (∃ text cause, reply.Refuses text ∧ (∀ given, ¬ reply.Signs given) ∧
      signed (WalletClient.signature reply) = .ok (.deny cause, [])) ∨
    (∀ text, ¬ reply.Refuses text) ∧ (∀ given, ¬ reply.Signs given) ∧
      ∃ e, signed (WalletClient.signature reply) = .error e := by
  have hrefuses : ∀ text, reply.Refuses text →
      WalletClient.signature reply = .error (.wallet (.rejected "/transactions/sign" text)) :=
    fun text h => WalletClient.signature_rejected.mpr ⟨rfl, h⟩
  have hsigns : ∀ given, reply.Signs given → WalletClient.signature reply = .ok given :=
    fun given h => WalletClient.signature_eq_ok.mpr h
  cases hsignature : WalletClient.signature reply with
  | ok given =>
    refine Or.inl ⟨given, WalletClient.signature_eq_ok.mp hsignature, fun text h => ?_, rfl⟩
    cases hsignature.symm.trans (hrefuses text h)
  | error e =>
    have hunsigned : ∀ given, ¬ reply.Signs given := by
      intro given h
      cases hsignature.symm.trans (hsigns given h)
    by_cases hrejected : ∃ path text, e = .wallet (.rejected path text)
    · obtain ⟨path, text, rfl⟩ := hrejected
      have hrefused := (WalletClient.signature_rejected.mp hsignature).2
      exact Or.inr (Or.inl ⟨text, _, hrefused, hunsigned, rfl⟩)
    · refine Or.inr (Or.inr ⟨fun text h => ?_, hunsigned, e, ?_⟩)
      · exact hrejected ⟨_, text, Except.error.inj (hsignature.symm.trans (hrefuses text h))⟩
      · cases e with
        | wallet e => cases e <;> first | rfl | exact absurd ⟨_, _, rfl⟩ hrejected
        | _ => rfl

/-- All that can come of a payload: what is returned, and the world after it. -/
inductive Outcome (s : Service) (payload : Json) (w : World) : Checked Json → World → Prop
  | failed {e : Fault} {made : List Call} {w' : World} :
      (∀ c r found, ¬ s.Poses payload w c r found) →
      w.Made made w' → (∀ call ∈ made, call.isPost = false) →
      Outcome s payload w (.error e) w'
  | answered {c : String} {r : Request} {found : Option Publication} {made : List Call}
      {w' : World} : s.Poses payload w c r found →
      (decision w found r = .allow → s.wallet = none) →
      w.Made made w' → (∀ call ∈ made, call.isPost = false) →
      Outcome s payload w (.ok (answerOf (decision w found r) [] found)) w'
  | posted {c : String} {r : Request} {found : Option Publication} {client : WalletClient}
      {transaction : Json} {made : List Call} {w' : World} : s.Poses payload w c r found →
      decision w found r = .allow → s.wallet = some client →
      transactionOf payload = .ok transaction →
      w.Made (made ++ [client.signRequest (.string c) (.string r.chain) transaction]) w' →
      (∀ call ∈ made, call.isPost = false) →
      Outcome s payload w ((signed (WalletClient.signature w.nextReply)).map fun answer =>
        answerOf answer.1 answer.2 found) w'

theorem perform_signAllowed (client : WalletClient) (c : String) (r : Request) (w : World)
    (h : transactionOf payload = .ok transaction) :
    ∃ w', w.Called (client.signRequest (.string c) (.string r.chain) transaction) w' ∧
      (signAllowed client (.string c) payload r).perform w =
        (signed (WalletClient.signature w.nextReply), w') := by
  obtain ⟨w', hcalled, hsign⟩ := client.perform_sign c (.string r.chain) transaction w
  refine ⟨w', hcalled, ?_⟩
  unfold signAllowed
  rw [h, Step.lift_ok, pure_bind, Step.perform_tryCatch, Step.perform_bind, hsign]
  cases WalletClient.signature w.nextReply with
  | ok signature => rfl
  | error e =>
    cases e with
    | wallet e => cases e <;> rfl
    | _ => rfl

theorem posts_of_prices {made : List Call} (h : ∀ call ∈ made, (!call.isRequest) = true) :
    ∀ call ∈ made, call.isPost = false := by
  intro call hcall
  have hno := h call hcall
  cases call <;> simp_all [Call.isRequest, Call.isPost]

/-- The end of signing: has a request signed if it was allowed, and answers. -/
def settle (s : Service) (wallet payload : Json) (r : Request) (d : Decision)
    (found : Option Publication) : Step Json := do
  let (d, signature) ← match d, s.wallet with
    | .allow, some client => signAllowed client wallet payload r
    | d, _ => pure (d, [])
  return answerOf d signature found

theorem settle_leads {made : List Call} {v : World} (hposes : s.Poses payload w c r found)
    (hmade : w.Made made v) (hreply : v.nextReply = w.nextReply)
    (hposts : ∀ call ∈ made, call.isPost = false) :
    (s.settle (.string c) payload r (decision w found r) found).Leads v
      (fun a w' => s.Outcome payload w (.ok a) w')
      (fun e w' => s.Outcome payload w (.error e) w') := by
  unfold settle
  cases hd : decision w found r with
  | deny cause =>
    have hanswered := Outcome.answered hposes (by simp [hd]) hmade hposts
    rw [hd] at hanswered
    exact .pure hanswered
  | allow =>
    cases hs : s.wallet with
    | none =>
      have hanswered := Outcome.answered hposes (fun _ => hs) hmade hposts
      rw [hd] at hanswered
      exact .pure hanswered
    | some client =>
      obtain ⟨fields, rfl, _⟩ := Json.field_eq_ok.mp hposes.wallet
      obtain ⟨transaction, htransaction⟩ := transactionOf_object fields
      obtain ⟨w', hcalled, hsign⟩ := perform_signAllowed client c r v htransaction
      have hposted := Outcome.posted hposes hd hs htransaction (hmade.called hcalled) hposts
      rw [hreply] at hsign
      cases hsigned : signed (WalletClient.signature w.nextReply) with
      | ok answer =>
        rw [hsigned] at hsign hposted
        exact .bind (.of_ok hsign (.pure hposted))
      | error e =>
        rw [hsigned] at hsign hposted
        exact .bind (.of_error hsign hposted)

def conclude (s : Service) (wallet payload : Json) (r : Request) : Step Json := do
  let (decision, publication) ← s.registry.shelf.authorize wallet r
  s.settle wallet payload r decision publication

theorem conclude_leads {u : World} (hwallet : payload.field "walletAddress" = .ok (.string c))
    (haddress : Address.isAddress c = true)
    (hrequest : (s.requestOf payload).perform w = (.ok r, u)) :
    (s.conclude (.string c) payload r).Leads u (fun v w' => s.Outcome payload w (.ok v) w')
      (fun e w' => s.Outcome payload w (.error e) w') := by
  have hasks := requestOf_within.after hrequest
  obtain ⟨made, hcalls, hkind, _⟩ := hasks.calls
  have hmade : w.Made made u := ⟨hasks.toKept, hcalls⟩
  have hposts := posts_of_prices hkind
  have hentry : (s.registry.shelf.entry? (Address.key c)).perform u = _ :=
    Shelf.entry?_kept hasks.toKept
  have hhere : (s.registry.shelf.entry? (Address.key c)).perform w = _ :=
    Shelf.entry?_kept (Frame.kept.refl w)
  unfold conclude
  cases hfound : ((s.registry.shelf.entry? (Address.key c)).perform w).1 with
  | error e =>
    rw [hfound] at hentry hhere
    refine .bind (.of_error (Shelf.authorize_of_error hentry) (.failed ?_ hmade hposts))
    intro c' r' found h
    obtain rfl := Json.string.inj (Except.ok.inj (hwallet.symm.trans h.wallet))
    cases hhere.symm.trans h.found
  | ok found =>
    rw [hfound] at hentry hhere
    have hposes : s.Poses payload w c r found := ⟨hwallet, haddress, by rw [hrequest], hhere⟩
    obtain ⟨v, hauthorize, hkept, hunasked⟩ := Shelf.authorize_of_entry hentry r
    rw [hasks.sources, hasks.times] at hauthorize
    have hmade : w.Made made v := hmade.congr hkept hunasked.calls
    have hreply : v.nextReply = w.nextReply := by
      rw [World.nextReply, hunasked.sources, hunasked.replies]
      exact hasks.nextReply
    exact .bind (.of_ok hauthorize (settle_leads hposes hmade hreply hposts))

theorem sign_leads : (s.sign payload).Leads w (fun v w' => s.Outcome payload w (.ok v) w')
    (fun e w' => s.Outcome payload w (.error e) w') := by
  have hearly : ∀ e, (∀ c r found, ¬ s.Poses payload w c r found) →
      s.Outcome payload w (.error e) w := fun e h => .failed h .nil (by simp)
  unfold sign
  cases hwallet : payload.field "walletAddress" with
  | error e =>
    refine .bind (.throw (hearly e fun c r found h => ?_))
    simp [h.wallet] at hwallet
  | ok wallet =>
    refine .bind (.pure ?_)
    by_cases haddress : Address.isAddressValue wallet = true
    · obtain ⟨c, rfl⟩ : ∃ c, wallet = .string c := by
        cases wallet <;> simp_all [Address.isAddressValue]
      have htruthy : (Json.string c).truthy = true := by
        obtain ⟨ds, hds, _⟩ := Address.isAddress_iff.mp haddress
        cases hempty : c.isEmpty with
        | false => simp [Json.truthy, hempty]
        | true => simp [String.isEmpty_iff.mp hempty] at hds
      simp only [htruthy, haddress, Bool.not_true, Bool.false_eq_true, if_false]
      cases hrequest : (s.requestOf payload).perform w with
      | mk result u =>
        have hasks := requestOf_within.after hrequest
        obtain ⟨made, hcalls, hkind, _⟩ := hasks.calls
        have hmade : w.Made made u := ⟨hasks.toKept, hcalls⟩
        have hposts := posts_of_prices hkind
        cases result with
        | error e =>
          refine .bind (.of_error hrequest (.failed ?_ hmade hposts))
          intro c r found h
          have hok := h.request
          rw [hrequest] at hok
          cases hok
        | ok r =>
          exact .bind (.of_ok hrequest (conclude_leads hwallet haddress hrequest))
    · have hno : ∀ c r found, ¬ s.Poses payload w c r found := by
        intro c r found h
        obtain rfl := Except.ok.inj (hwallet.symm.trans h.wallet)
        exact haddress h.address
      simp only [haddress, Bool.not_false, if_true]
      split
      · exact .bind (.throw (hearly _ hno))
      · exact .bind (.throw (hearly _ hno))

theorem sign_outcome (s : Service) (payload : Json) (w : World) :
    s.Outcome payload w ((s.sign payload).perform w).1 ((s.sign payload).perform w).2 :=
  sign_leads.result

theorem Outcome.kept {result : Checked Json} (h : s.Outcome payload w result w') : w.Kept w' := by
  cases h with
  | failed _ hmade _ => exact hmade.toKept
  | answered _ _ hmade _ => exact hmade.toKept
  | posted _ _ _ _ hmade _ => exact hmade.toKept

section Answer

variable {d : Decision} {signature : Json.Fields} {name : String}

theorem lookup_success :
    (answerFields d signature found).lookup "success" = some (.bool d.allowed) := rfl

theorem lookup_allowed :
    (answerFields d signature found).lookup "allowed" = some (.bool d.allowed) := by
  cases d <;> rfl

theorem lookup_signature :
    (answerFields d signature found).lookup "signature" = signature.lookup "signature" := by
  have hpolicy : (policyFields found).lookup "signature" = none := by
    cases found <;> rfl
  have hdecision : d.fields.lookup "signature" = none := by
    cases d <;> rfl
  simp [answerFields, lookup_cons_if, List.lookup_append, hpolicy, hdecision]

end Answer

theorem answerOf_denies {cause : Denial} : (answerOf (.deny cause) [] found).Denies :=
  ⟨answerFields (.deny cause) [] found, rfl, lookup_success, lookup_allowed, lookup_signature⟩

/-- A payload may be signed: there is a wallet client, and the document that is published for the
wallet allows the request that the payload amounts to at the time of the clock. -/
structure Cleared (s : Service) (payload : Json) (w : World) (client : WalletClient) (c : String)
    (r : Request) (pub : Publication) : Prop where
  client : s.wallet = some client
  poses : s.Poses payload w c r (some pub)
  allowed : pub.document.evaluate r (some (w.sources.time w.times)) = .allow

structure FailsClosed (s : Service) (payload : Json) (w : World) (result : Checked Json)
    (w' : World) : Prop where
  /-- One post is made at most, for a signature, and only if the payload may be signed. -/
  posts : ∃ made, w'.calls = w.calls ++ made ∧ made.countP Call.isPost ≤ 1 ∧
    ∀ call ∈ made, call.isPost = true → ∃ client c r pub transaction,
      s.Cleared payload w client c r pub ∧
        call = client.signRequest (.string c) (.string r.chain) transaction
  /-- A signature that is answered is the one that the wallet service gave. -/
  signature : ∀ v, result = .ok v → ∃ fields, v = .object fields ∧
    ∀ signature, fields.lookup "signature" = some signature →
      fields.lookup "success" = some (.bool true) ∧ fields.lookup "allowed" = some (.bool true) ∧
      ∃ client c r pub given, s.Cleared payload w client c r pub ∧ w.nextReply.Signs given ∧
        signature = .string given
  /-- Without a published document the answer is a denial. -/
  missed : ∀ c r, s.Poses payload w c r none → ∃ v, result = .ok v ∧ v.Denies
  /-- What the document denies is denied. -/
  denied : ∀ c r pub cause, s.Poses payload w c r (some pub) →
    pub.document.evaluate r (some (w.sources.time w.times)) = .deny cause →
    ∃ v, result = .ok v ∧ v.Denies
  /-- What the wallet service refuses is denied. -/
  refused : ∀ client c r pub text, s.Cleared payload w client c r pub →
    w.nextReply.Refuses text → ∃ v, result = .ok v ∧ v.Denies
  /-- Every other reply without a signature is a failure. -/
  unsigned : ∀ client c r pub, s.Cleared payload w client c r pub →
    (∀ text, ¬ w.nextReply.Refuses text) → (∀ given, ¬ w.nextReply.Signs given) →
    ∃ e, result = .error e
  /-- An amount of wei without a price is a failure. -/
  unpriced : ∀ wei, payload.field "valueUsd" = .ok .null → payload.field "valueWei" = .ok wei →
    wei ≠ .null →
    (∀ prices price u, s.prices = some prices → prices.usdPrice.perform w ≠ (.ok price, u)) →
    ∃ e, result = .error e
  /-- Published documents that cannot be read are a failure. -/
  unread : ∀ c e, payload.field "walletAddress" = .ok (.string c) →
    ((s.registry.shelf.entry? (Address.key c)).perform w).1 = .error e → ∃ e, result = .error e
  kept : w.Kept w'

theorem Poses.priced (h : s.Poses payload w c r found) {wei : Json}
    (husd : payload.field "valueUsd" = .ok .null) (hwei : payload.field "valueWei" = .ok wei)
    (hnull : wei ≠ .null) : ∃ prices price u, s.prices = some prices ∧
      prices.usdPrice.perform w = (.ok price, u) := by
  have hrequest : (s.requestOf payload).perform w = (.ok r, _) := Prod.ext h.request rfl
  obtain ⟨_, _, _, _, _, hvalue, _⟩ := requestOf_eq_ok hrequest
  obtain ⟨prices, _, price, _, hprices, _, hprice, _⟩ := valueOf_wei husd hwei hnull hvalue
  exact ⟨prices, price, _, hprices, hprice⟩

theorem Poses.readable (h : s.Poses payload w c r found) {c' : String} {e : Fault}
    (hwallet : payload.field "walletAddress" = .ok (.string c')) :
    ((s.registry.shelf.entry? (Address.key c')).perform w).1 ≠ .error e := by
  obtain rfl := Json.string.inj (Except.ok.inj (h.wallet.symm.trans hwallet))
  rw [h.found]
  exact nofun

theorem Cleared.decision {pub : Publication} (h : s.Cleared payload w client c r pub) :
    decision w (some pub) r = .allow := h.allowed

theorem failsClosed_of_failed {e : Fault} {made : List Call}
    (hno : ∀ c r found, ¬ s.Poses payload w c r found) (hmade : w.Made made w')
    (hposts : ∀ call ∈ made, call.isPost = false) : s.FailsClosed payload w (.error e) w' where
  posts := ⟨made, hmade.calls, Call.posts_of_none hposts⟩
  signature := nofun
  missed c r h := absurd h (hno c r none)
  denied c r pub _ h _ := absurd h (hno c r (some pub))
  refused _ c r pub _ h _ := absurd h.poses (hno c r (some pub))
  unsigned _ _ _ _ _ _ _ := ⟨e, rfl⟩
  unpriced _ _ _ _ _ := ⟨e, rfl⟩
  unread _ _ _ _ := ⟨e, rfl⟩
  kept := hmade.toKept

theorem failsClosed_of_answered {made : List Call} (hposes : s.Poses payload w c r found)
    (hwallet : decision w found r = .allow → s.wallet = none) (hmade : w.Made made w')
    (hposts : ∀ call ∈ made, call.isPost = false) :
    s.FailsClosed payload w (.ok (answerOf (decision w found r) [] found)) w' := by
  have hnotCleared : ∀ client c r pub, ¬ s.Cleared payload w client c r pub := by
    intro client c' r' pub h
    obtain ⟨rfl, rfl, rfl⟩ := hposes.unique h.poses
    cases h.client.symm.trans (hwallet h.decision)
  have hdenies : ∀ cause, decision w found r = .deny cause →
      (answerOf (decision w found r) [] found).Denies :=
    fun cause hd => hd ▸ answerOf_denies
  constructor
  case posts => exact ⟨made, hmade.calls, Call.posts_of_none hposts⟩
  case signature =>
    rintro v ⟨⟩
    refine ⟨_, rfl, fun signature hsignature => ?_⟩
    rw [lookup_signature] at hsignature
    cases hsignature
  case missed =>
    intro c' r' h
    obtain ⟨rfl, rfl, rfl⟩ := hposes.unique h
    exact ⟨_, rfl, hdenies .noPolicy rfl⟩
  case denied =>
    intro c' r' pub cause h hdeny
    obtain ⟨rfl, rfl, rfl⟩ := hposes.unique h
    exact ⟨_, rfl, hdenies cause hdeny⟩
  case refused => exact fun client c r pub _ h _ => absurd h (hnotCleared client c r pub)
  case unsigned => exact fun client c r pub h _ _ => absurd h (hnotCleared client c r pub)
  case unpriced =>
    intro wei husd hwei hnull hno
    obtain ⟨prices, price, u, hprices, hprice⟩ := hposes.priced husd hwei hnull
    exact absurd hprice (hno prices price u hprices)
  case unread => exact fun c e hc he => absurd he (hposes.readable hc)
  case kept => exact hmade.toKept

theorem failsClosed_of_posted {made : List Call} (hposes : s.Poses payload w c r found)
    (hallow : decision w found r = .allow) (hclient : s.wallet = some client)
    (hmade : w.Made (made ++ [client.signRequest (.string c) (.string r.chain) transaction]) w')
    (hposts : ∀ call ∈ made, call.isPost = false) :
    s.FailsClosed payload w ((signed (WalletClient.signature w.nextReply)).map fun answer =>
      answerOf answer.1 answer.2 found) w' := by
  obtain ⟨pub, rfl, hallowed⟩ : ∃ pub, found = some pub ∧
      pub.document.evaluate r (some (w.sources.time w.times)) = .allow := by
    cases found with
    | none => cases hallow
    | some pub => exact ⟨pub, rfl, hallow⟩
  have hcleared : s.Cleared payload w client c r pub := ⟨hclient, hposes, hallowed⟩
  constructor
  case posts =>
    exact ⟨_, hmade.calls, Call.posts_of_one hposts ⟨client, c, r, pub, transaction, hcleared, rfl⟩⟩
  case signature =>
    intro v hv
    obtain ⟨answer, hanswer, rfl⟩ := map_eq_ok.mp hv
    refine ⟨_, rfl, fun signature hlookup => ?_⟩
    rw [lookup_signature] at hlookup
    rcases signed_cases w.nextReply with ⟨given, hsigns, _, hsigned⟩ | ⟨_, _, _, _, hsigned⟩ |
      ⟨_, _, e, hsigned⟩
    · obtain rfl := Except.ok.inj (hsigned.symm.trans hanswer)
      obtain rfl := Option.some.inj hlookup
      exact ⟨rfl, rfl, client, c, r, pub, given, hcleared, hsigns, rfl⟩
    · obtain rfl := Except.ok.inj (hsigned.symm.trans hanswer)
      cases hlookup
    · cases hsigned.symm.trans hanswer
  case missed =>
    intro c' r' h
    cases (hposes.unique h).2.2
  case denied =>
    intro c' r' pub' cause h hdeny
    obtain ⟨rfl, rfl, hpub⟩ := hposes.unique h
    obtain rfl := Option.some.inj hpub
    cases hallowed.symm.trans hdeny
  case refused =>
    intro client' c' r' pub' text h hrefuses
    rcases signed_cases w.nextReply with ⟨_, _, hunrefused, _⟩ | ⟨_, cause, _, _, hsigned⟩ |
      ⟨hunrefused, _⟩
    · exact absurd hrefuses (hunrefused text)
    · exact ⟨_, by rw [hsigned]; rfl, answerOf_denies⟩
    · exact absurd hrefuses (hunrefused text)
  case unsigned =>
    intro client' c' r' pub' h hunrefused hunsigned
    rcases signed_cases w.nextReply with ⟨given, hsigns, _⟩ | ⟨text, _, hrefuses, _⟩ |
      ⟨_, _, e, hsigned⟩
    · exact absurd hsigns (hunsigned given)
    · exact absurd hrefuses (hunrefused text)
    · exact ⟨e, by rw [hsigned]; rfl⟩
  case unpriced =>
    intro wei husd hwei hnull hno
    obtain ⟨prices, price, u, hprices, hprice⟩ := hposes.priced husd hwei hnull
    exact absurd hprice (hno prices price u hprices)
  case unread => exact fun c e hc he => absurd he (hposes.readable hc)
  case kept => exact hmade.toKept

theorem Outcome.failsClosed {result : Checked Json} (h : s.Outcome payload w result w') :
    s.FailsClosed payload w result w' := by
  cases h with
  | failed hno hmade hposts => exact failsClosed_of_failed hno hmade hposts
  | answered hposes hwallet hmade hposts =>
    exact failsClosed_of_answered hposes hwallet hmade hposts
  | posted hposes hallow hclient _ hmade hposts =>
    exact failsClosed_of_posted hposes hallow hclient hmade hposts

/-- Signing fails closed, whatever the payload is and whatever the services reply. -/
theorem sign_failsClosed (s : Service) (payload : Json) (w : World) :
    s.FailsClosed payload w ((s.sign payload).perform w).1 ((s.sign payload).perform w).2 :=
  (sign_outcome s payload w).failsClosed

end Service

end Allowance
