import Allowance.Proofs.Json.Access
import Allowance.Proofs.Number.Value
import Allowance.Proofs.World.Step
import Allowance.Service.Price

/-! # Which prices are used

The market is asked again as long as it fails, three times at most, and the answer to the last
question decides. Data become a price when they report, for the asset, a number above zero. Infinity
and what is not a number are not sorted out, nor is the boolean that counts as one.
-/

namespace Allowance

namespace Number

variable {n : Number}

theorem eq_infinity_of_value? (h : n.value? = some ⊤) : n = .double (.infinity false) := by
  cases n with
  | int n => exact absurd (Option.some.inj h) (WithBotTop.coe_ne_top _)
  | double d =>
    cases d with
    | nan => cases h
    | infinity negative =>
      cases negative with
      | false => rfl
      | true => cases Option.some.inj h
    | finite negative units => exact absurd (Option.some.inj h) (WithBotTop.coe_ne_top _)

theorem toDouble?_int {n : ℤ} {d : Double} : (Number.int n).toDouble? = some d ↔
    (Double.ofInt n).isFinite = true ∧ Double.ofInt n = d := by
  simp [toDouble?]

/-- What is neither zero nor negative is above zero or infinite, or it is not a number. -/
theorem le_zero_eq_false_iff : n.le 0 = false ↔
    n = .double .nan ∨ n = .double (.infinity false) ∨ ∃ x : ℚ, n.value? = some ↑x ∧ 0 < x := by
  by_cases hnan : n = .double .nan
  · subst hnan
    exact iff_of_true rfl (Or.inl rfl)
  rw [le_eq_false_iff hnan (by decide), or_iff_right hnan, lt_iff]
  have hcoe {x : ℚ} : (((0 : ℤ) : ℚ) : WithBotTop ℚ) < x ↔ 0 < x := by
    rw [Int.cast_zero]
    exact WithBotTop.coe_lt_coe
  constructor
  · rintro ⟨zero, v, hzero, hv, hlt⟩
    obtain rfl : ((0 : ℤ) : ℚ) = zero := Option.some.inj hzero
    induction v using WithBotTop.rec with
    | bot => exact absurd hlt not_lt_bot
    | top => exact Or.inl (eq_infinity_of_value? hv)
    | coe x => exact Or.inr ⟨x, hv, hcoe.mp hlt⟩
  · rintro (rfl | ⟨x, hx, hpos⟩)
    · exact ⟨((0 : ℤ) : ℚ), ⊤, rfl, rfl, coe_lt_top _⟩
    · exact ⟨((0 : ℤ) : ℚ), x, rfl, hx, hcoe.mpr hpos⟩

end Number

/-- What an answer of the market comes to: data, or the reason of a failure. -/
def Quote.found : Quote → Except String Json
  | .data v => .ok v
  | .failure reason => .error reason

namespace PriceConfig

open Checked

variable {config : PriceConfig} {quote : Nat → Quote} {n most last : Nat} {answer price : Json}
  {d : Double} {w : World}

section Attempts

/-- Questions are asked until one is answered with data, and after the first one at most as many
more as a bound says. -/
structure Asked (quote : Nat → Quote) (n most last : Nat) : Prop where
  le : last ≤ most
  failed : ∀ i < last, ∃ reason, quote (n + i) = .failure reason
  data : last < most → ∃ v, quote (n + last) = .data v

theorem Asked.once (h : ∃ v, quote n = .data v) : Asked quote n most 0 :=
  ⟨Nat.zero_le _, nofun, fun _ => h⟩

theorem asked_succ_iff : Asked quote n (most + 1) (last + 1) ↔
    (∃ reason, quote n = .failure reason) ∧ Asked quote (n + 1) most last := by
  have hnext (i : Nat) : quote (n + (i + 1)) = quote (n + 1 + i) := by
    rw [← Nat.add_assoc, Nat.add_right_comm]
  constructor
  · intro h
    refine ⟨h.failed 0 (Nat.succ_pos _), Nat.le_of_succ_le_succ h.le, fun i hi => ?_, fun hlt => ?_⟩
    · exact hnext i ▸ h.failed (i + 1) (Nat.succ_lt_succ hi)
    · exact hnext last ▸ h.data (Nat.succ_lt_succ hlt)
  · rintro ⟨hquote, h⟩
    refine ⟨Nat.succ_le_succ h.le, fun i hi => ?_, fun hlt => ?_⟩
    · cases i with
      | zero => exact hquote
      | succ i => exact hnext i ▸ h.failed i (Nat.lt_of_succ_lt_succ hi)
    · exact hnext last ▸ h.data (Nat.lt_of_succ_lt_succ hlt)

def trail (config : PriceConfig) (pauses : List Nat) : List Call :=
  (pauses.flatMap fun pause =>
    [.price config.asset "usd", .sleep (.ofRatio false pause 1)]) ++ [.price config.asset "usd"]

/-- The market is asked until it gives data, at most once more than there are pauses. -/
theorem perform_fetch (config : PriceConfig) (pauses : List Nat) (w : World) :
    ∃ last, Asked w.sources.quote w.quotes pauses.length last ∧
      (config.fetch pauses).perform w = (.ok (w.sources.quote (w.quotes + last)).found,
        { w with calls := w.calls ++ config.trail (pauses.take last),
                 quotes := w.quotes + (last + 1) }) := by
  induction pauses generalizing w with
  | nil =>
    refine ⟨0, ⟨Nat.le_refl _, nofun, nofun⟩, (Step.perform_bind_of_ok rfl).trans ?_⟩
    rw [Nat.add_zero]
    cases w.sources.quote w.quotes <;> rfl
  | cons pause rest ih =>
    cases hquote : w.sources.quote w.quotes with
    | data v =>
      have hlast : w.sources.quote (w.quotes + 0) = .data v := hquote
      refine ⟨0, .once ⟨v, hquote⟩, (Step.perform_bind_of_ok rfl).trans ?_⟩
      rw [hquote, hlast]
      rfl
    | failure reason =>
      obtain ⟨last, hasked, hfetch⟩ := ih { w with
        calls := w.calls ++ [.price config.asset "usd"] ++ [.sleep (.ofRatio false pause 1)],
        quotes := w.quotes + 1 }
      refine ⟨last + 1, asked_succ_iff.mpr ⟨⟨reason, hquote⟩, hasked⟩,
        (Step.perform_bind_of_ok rfl).trans ?_⟩
      rw [hquote]
      refine ((Step.perform_bind_of_ok rfl).trans hfetch).trans ?_
      simp [trail, Nat.add_assoc, Nat.add_comm 1]

def firstData (quote : Nat → Quote) (n : Nat) : Nat → Option Json
  | 0 => none
  | count + 1 =>
    match quote n with
    | .data v => some v
    | .failure _ => firstData quote (n + 1) count

theorem Asked.firstData_eq (h : Asked quote n most last) :
    firstData quote n (most + 1) = (quote (n + last)).found.toOption := by
  induction last generalizing n most with
  | zero =>
    rw [firstData, Nat.add_zero]
    cases hquote : quote n with
    | data v => rfl
    | failure reason =>
      obtain rfl : most = 0 := by
        by_contra hmost
        obtain ⟨v, hv⟩ := h.data (Nat.pos_of_ne_zero hmost)
        cases hquote.symm.trans hv
      rfl
  | succ last ih =>
    cases most with
    | zero => exact absurd h.le (Nat.not_succ_le_zero _)
    | succ most =>
      obtain ⟨⟨reason, hquote⟩, hrest⟩ := asked_succ_iff.mp h
      rw [firstData, hquote, ← Nat.add_assoc, Nat.add_right_comm]
      exact ih hrest

end Attempts

section Answers

def accept (config : PriceConfig) (answer price : Json) : Checked Double :=
  match price.number? with
  | none => .error (.price (.unusable config.asset answer))
  | some n =>
    if n.le 0 then .error (.price (.unusable config.asset answer))
    else match n.toDouble? with
      | some d => .ok d
      | none => misuse .tooLarge

def judge (config : PriceConfig) (answer : Json) : Checked Double := do
  config.accept answer (← config.priceIn answer)

def conclude (config : PriceConfig) : Except String Json → Checked Double
  | .error reason => .error (.price (.lookupFailed config.asset reason))
  | .ok answer => config.judge answer

theorem perform_usdPrice (config : PriceConfig) (w : World) :
    ∃ last, Asked w.sources.quote w.quotes 2 last ∧ ∃ log,
      config.usdPrice.perform w = (config.conclude (w.sources.quote (w.quotes + last)).found,
        { w with calls := w.calls ++ config.trail (pauses.take last),
                 quotes := w.quotes + (last + 1), log }) := by
  obtain ⟨last, hasked, hfetch⟩ := perform_fetch config pauses w
  rw [usdPrice, Step.perform_bind_of_ok hfetch]
  refine ⟨last, hasked, ?_⟩
  cases (w.sources.quote (w.quotes + last)).found with
  | error reason => exact ⟨_, rfl⟩
  | ok answer =>
    refine Step.Logs.bind (r := config.priceIn answer) (.lift _) (fun price => ?_) _
    unfold accept
    cases price.number? with
    | none => exact .throw _
    | some n =>
      refine .refuse ?_
      cases n.toDouble? with
      | some d => exact .pure _
      | none => exact .throw _

/-- The double that a value is as a price. A positive number is one; infinity and what is not a
number pass for one, too, and so does the boolean that counts as one. -/
inductive PriceOf : Json → Double → Prop
  | double {d : Double} {x : ℚ} (hvalue : d.value? = some ↑x) (hpos : 0 < x) :
      PriceOf (.number (.double d)) d
  | int {n : ℤ} (hpos : 0 < n) (hfinite : (Double.ofInt n).isFinite = true) :
      PriceOf (.int n) (.ofInt n)
  | infinity : PriceOf (.number (.double (.infinity false))) (.infinity false)
  | nan : PriceOf (.number (.double .nan)) .nan
  | true : PriceOf (.bool true) (.ofInt 1)

def Offers (config : PriceConfig) (answer price : Json) : Prop :=
  ∃ fields entry, answer = .object fields ∧ fields.lookup config.asset = some (.object entry) ∧
    entry.lookup "usd" = some price

theorem priceOf_number {n : Number} :
    PriceOf (.number n) d ↔ n.le 0 = false ∧ n.toDouble? = some d := by
  rw [Number.le_zero_eq_false_iff]
  constructor
  · intro h
    cases h with
    | double hvalue hpos => exact ⟨Or.inr (Or.inr ⟨_, hvalue, hpos⟩), rfl⟩
    | int hpos hfinite =>
      exact ⟨Or.inr (Or.inr ⟨_, rfl, by exact_mod_cast hpos⟩),
        Number.toDouble?_int.mpr ⟨hfinite, rfl⟩⟩
    | infinity => exact ⟨Or.inr (Or.inl rfl), rfl⟩
    | nan => exact ⟨Or.inl rfl, rfl⟩
  · rintro ⟨rfl | rfl | ⟨x, hx, hpos⟩, hd⟩
    · obtain rfl := Option.some.inj hd
      exact .nan
    · obtain rfl := Option.some.inj hd
      exact .infinity
    · cases n with
      | int n =>
        obtain rfl : (n : ℚ) = x := WithBotTop.coe_injective (Option.some.inj hx)
        obtain ⟨hfinite, rfl⟩ := Number.toDouble?_int.mp hd
        exact .int (by exact_mod_cast hpos) hfinite
      | double d' =>
        obtain rfl := Option.some.inj hd
        exact .double hx hpos

theorem priceOf_iff : PriceOf price d ↔
    ∃ n, price.number? = some n ∧ n.le 0 = false ∧ n.toDouble? = some d := by
  have hone : (Number.int 1).toDouble? = some (.ofInt 1) :=
    Number.toDouble?_int.mpr ⟨by decide +kernel, rfl⟩
  cases price with
  | number n => simp [Json.number?, priceOf_number]
  | bool b =>
    cases b with
    | false =>
      refine iff_of_false nofun ?_
      rintro ⟨n, hn, hle, -⟩
      obtain rfl := Option.some.inj hn
      revert hle
      decide +kernel
    | true =>
      constructor
      · rintro ⟨⟩
        exact ⟨.int 1, rfl, by decide +kernel, hone⟩
      · rintro ⟨n, hn, -, hd⟩
        obtain rfl := Option.some.inj hn
        obtain rfl := Option.some.inj (hone.symm.trans hd)
        exact .true
  | _ => exact iff_of_false nofun nofun

theorem accept_eq_ok : config.accept answer price = .ok d ↔ PriceOf price d := by
  rw [priceOf_iff, accept]
  cases price.number? with
  | none => simp
  | some n =>
    cases hle : n.le 0 with
    | true => simp [hle]
    | false => cases hd : n.toDouble? <;> simp [hle, hd]

theorem judge_eq_ok : config.judge answer = .ok d ↔
    ∃ price, config.Offers answer price ∧ PriceOf price d := by
  simp only [judge, priceIn, bind_eq_ok, accept_eq_ok]
  constructor
  · rintro ⟨price, ⟨value, hvalue, hfield⟩, hd⟩
    refine ⟨price, ?_, hd⟩
    obtain ⟨entry, rfl, hprice⟩ := Json.field_eq_ok.mp hfield
    obtain ⟨fields, hanswer, hentry⟩ := Json.fieldOr_eq_ok.mp hvalue
    -- A price is there only if neither the answer nor its entry is left out.
    cases hfound : entry.lookup "usd" with
    | none =>
      rw [hfound] at hprice
      subst hprice
      cases hd
    | some found =>
      obtain rfl : found = price := by rwa [hfound] at hprice
      cases hlookup : fields.lookup config.asset with
      | none =>
        rw [hlookup] at hentry
        obtain rfl : [] = entry := by simpa using hentry
        cases hfound
      | some value =>
        obtain rfl : value = .object entry := by rwa [hlookup] at hentry
        refine ⟨fields, entry, ?_, hlookup, hfound⟩
        split at hanswer
        · exact hanswer
        · obtain rfl : [] = fields := by simpa using hanswer
          cases hlookup
  · rintro ⟨price, ⟨fields, entry, rfl, hentry, hprice⟩, hd⟩
    have htruthy : (Json.object fields).truthy = true := by
      cases fields with
      | nil => cases hentry
      | cons field rest => rfl
    refine ⟨price, ⟨.object entry, ?_, ?_⟩, hd⟩
    · simp [htruthy, Json.fieldOr, hentry]
    · simp [Json.field, hprice]

end Answers

/-- The market is asked three times at most, and not again after it has given data. A price comes
of the data that were given last, and of them only when they offer a number above zero, or
infinity, something that is not a number or the boolean that counts as one. -/
theorem usdPrice_uses (config : PriceConfig) (w : World) : ∃ last,
    Asked w.sources.quote w.quotes 2 last ∧
    (config.usdPrice.perform w).2.quotes = w.quotes + (last + 1) ∧
    (config.usdPrice.perform w).2.calls = w.calls ++ config.trail (pauses.take last) ∧
    ∀ d, (config.usdPrice.perform w).1 = .ok d ↔ ∃ answer price,
      w.sources.quote (w.quotes + last) = .data answer ∧ config.Offers answer price ∧
        PriceOf price d := by
  obtain ⟨last, hasked, log, hperform⟩ := perform_usdPrice config w
  rw [hperform]
  refine ⟨last, hasked, rfl, rfl, fun d => ?_⟩
  cases w.sources.quote (w.quotes + last) with
  | failure reason => simp [Quote.found, conclude]
  | data answer => simp [Quote.found, conclude, judge_eq_ok]

def offering (price : Json) : World where
  sources := ⟨fun _ => 0, fun _ => "", fun _ => .badUrl, fun _ =>
    .data (.object [("ethereum", .object [("usd", price)])])⟩

/-- A boolean, what is not a number, and infinity become prices. -/
theorem usdPrice_offering :
    ((usdPrice {}).perform (offering (.bool true))).1 = .ok (.ofInt 1) ∧
    ((usdPrice {}).perform (offering (.number (.double .nan)))).1 = .ok .nan ∧
    ((usdPrice {}).perform (offering (.number (.double (.infinity false))))).1 =
      .ok (.infinity false) := by
  refine ⟨Checked.gives_iff.mp (by decide +kernel), Checked.gives_iff.mp (by decide +kernel),
    Checked.gives_iff.mp (by decide +kernel)⟩

end PriceConfig

end Allowance
