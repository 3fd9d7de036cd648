import Allowance.Proofs.Document.Reading
import Allowance.Proofs.Json.RoundTrip

/-! # Documents read back

A document that reading accepts is the same after it was written as text and parsed, on one line or
indented, as long as its wire form is read back from that text. It is when the numbers of the
document are, and when its partner, names and descriptions are.
-/

namespace Allowance

variable {depth : Nat}

theorem Json.legible_ofTexts (ss : List String) : Legible (depth + 1) (.ofTexts ss) := by
  refine .array fun v hv => ?_
  obtain ⟨s, _, rfl⟩ := List.mem_map.mp hv
  exact .string

def Test.Legible (t : Test) : Prop := ∀ n, t.reference = .number n → n.Legible

theorem Test.Legible.reference {t : Test} (h : t.Legible) :
    Json.Legible (depth + 1) t.reference := by
  cases t with
  | equalsNumber n => exact .number (h n rfl)
  | equalsText s => exact .string
  | greaterThan n => exact .number (h n rfl)
  | lessThan n => exact .number (h n rfl)
  | includedIn listed => exact Json.legible_ofTexts listed
  | notIncludedIn listed => exact Json.legible_ofTexts listed

theorem Condition.legible_toJson {c : Condition} (h : c.test.Legible) :
    Json.Legible (depth + 2) c.toJson := by
  refine .object (by simp) fun field hfield => ?_
  simp only [List.mem_cons, List.not_mem_nil, or_false] at hfield
  rcases hfield with rfl | rfl | rfl | rfl
  · exact .string
  · exact .string
  · exact .string
  · exact h.reference

theorem Permission.legible_toJson {p : Permission} (h : ∀ c ∈ p.conditions, c.test.Legible) :
    Json.Legible (depth + 4) p.toJson := by
  refine .object (by simp) fun field hfield => ?_
  simp only [List.mem_cons, List.not_mem_nil, or_false] at hfield
  rcases hfield with rfl | rfl | rfl | rfl
  · exact .string
  · exact .string
  · exact .string
  · refine .array fun v hv => ?_
    obtain ⟨c, hc, rfl⟩ := List.mem_map.mp hv
    exact Condition.legible_toJson (h c hc)

theorem Scope.legible_toJson {s : Scope} (hname : Json.Legible (depth + 5) s.name)
    (hdescription : Json.Legible (depth + 5) s.description)
    (h : ∀ p ∈ s.permissions, ∀ c ∈ p.conditions, c.test.Legible) :
    Json.Legible (depth + 6) s.toJson := by
  refine .object (by simp) fun field hfield => ?_
  simp only [List.mem_cons, List.not_mem_nil, or_false] at hfield
  rcases hfield with rfl | rfl | rfl | rfl
  · exact hname
  · exact hdescription
  · exact .bool
  · refine .array fun v hv => ?_
    obtain ⟨p, hp, rfl⟩ := List.mem_map.mp hv
    exact Permission.legible_toJson (h p hp)

namespace Document

/-- The documents whose numbers and names are read back. Names and descriptions may be any values,
so they share in the bound on nested brackets. -/
structure Legible (depth : Nat) (d : Document) : Prop where
  partner : Json.Legible (depth + 7) d.partner
  validFrom : ∀ n, d.validFrom = some n → n.Legible
  validTo : ∀ n, d.validTo = some n → n.Legible
  names : ∀ s ∈ d.scopes, Json.Legible (depth + 5) s.name
  descriptions : ∀ s ∈ d.scopes, Json.Legible (depth + 5) s.description
  tests : ∀ s ∈ d.scopes, ∀ p ∈ s.permissions, ∀ c ∈ p.conditions, c.test.Legible

variable {d : Document} {v : Json}

theorem Legible.toJson (h : d.Legible depth) : Json.Legible (depth + 8) d.toJson := by
  obtain ⟨partner, validFrom, validTo, scopes⟩ := d
  have hwindow {name : String} {n : Option Number} (hn : ∀ m, n = some m → m.Legible) :
      ∀ field ∈ numberField name n, Json.Legible (depth + 7) field.2 := by
    cases n with
    | none => simp [numberField]
    | some m => simpa [numberField] using .number (hn m rfl)
  refine .object ?_ fun field hfield => ?_
  · cases validFrom <;> cases validTo <;> simp [numberField]
  · simp only [List.mem_append, List.mem_singleton] at hfield
    rcases hfield with ((rfl | hfield) | hfield) | rfl
    · exact h.partner
    · exact hwindow h.validFrom field hfield
    · exact hwindow h.validTo field hfield
    · refine .array fun v hv => ?_
      obtain ⟨s, hs, rfl⟩ := List.mem_map.mp hv
      exact Scope.legible_toJson (h.names s hs) (h.descriptions s hs) (h.tests s hs)

/-- A document that reading accepts is parsed from its text as it was, if the text of its wire form
is read as that wire form. -/
theorem parse_format {reader : Json.Reader} (h : ofJson v = .ok d) (indent : Option Nat)
    (htext : Json.read (d.toJson.write indent) reader = .ok d.toJson) :
    parse (d.format indent) reader = .ok d := by
  rw [parse, format, htext]
  exact ofJson_toJson (wellFormed_of_ofJson h)

def pocketMoney : Document where
  partner := .string "family"
  validFrom := some 0
  validTo := some 1735689600000
  scopes := [{
    name := .string "pocket money"
    description := .string "Up to 15 € a week, \"sweets\" excluded"
    required := true
    permissions := [{
      effect := .allow
      chain := "8453"
      action := .transfer
      conditions := [
        ⟨.value, .lessThan 15⟩,
        ⟨.recipient, .includedIn ["0xde709f2102306220921060314715629080e2fb77"]⟩,
        ⟨.argument "ARGUMENTS[0]" 0, .equalsText "candy"⟩] }] }]

theorem wellFormed_pocketMoney : pocketMoney.WellFormed := by
  refine ⟨fun s hs => ?_, fun s hs => ?_, ?_, ?_, by decide +kernel⟩
  · obtain rfl := List.mem_singleton.mp hs
    refine ⟨fun p hp => ?_, List.pairwise_singleton _ _⟩
    obtain rfl := List.mem_singleton.mp hp
    refine ⟨by decide, fun c hc => ?_⟩
    simp only [List.mem_cons, List.not_mem_nil, or_false] at hc
    rcases hc with rfl | rfl | rfl
    · exact ⟨rfl, show _ = _ by decide +kernel⟩
    · exact ⟨rfl, trivial⟩
    · exact ⟨Checked.gives_iff.mp (by decide +kernel), trivial⟩
  · exact List.countP_le_length
  · rintro n ⟨⟩
    decide +kernel
  · rintro n ⟨⟩
    decide +kernel

theorem legible_pocketMoney : pocketMoney.Legible depth := by
  refine ⟨.string, ?_, ?_, ?_, ?_, ?_⟩
  · rintro n ⟨⟩
    exact Number.legible_int (by decide +kernel)
  · rintro n ⟨⟩
    exact Number.legible_int (by decide +kernel)
  · simp [pocketMoney, Json.Legible.string]
  · simp [pocketMoney, Json.Legible.string]
  · intro s hs p hp c hc n hn
    obtain rfl := List.mem_singleton.mp hs
    obtain rfl := List.mem_singleton.mp hp
    simp only [List.mem_cons, List.not_mem_nil, or_false] at hc
    rcases hc with rfl | rfl | rfl
    · cases hn
      exact Number.legible_int (by decide +kernel)
    · cases hn
    · cases hn

theorem parse_format_pocketMoney :
    ofJson pocketMoney.toJson = .ok pocketMoney ∧
      Json.read (pocketMoney.toJson.write (some displayIndent)) = .ok pocketMoney.toJson ∧
      parse (pocketMoney.format (some displayIndent)) = .ok pocketMoney := by
  have h := ofJson_toJson wellFormed_pocketMoney
  have hlegible : pocketMoney.Legible 982 := legible_pocketMoney
  have htext : Json.read (pocketMoney.toJson.write (some displayIndent)) = .ok pocketMoney.toJson :=
    Json.Legible.read_write hlegible.toJson _
  exact ⟨h, htext, parse_format h (some displayIndent) htext⟩

end Document

end Allowance
