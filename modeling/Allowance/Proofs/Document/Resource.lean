import Allowance.Proofs.Document.Condition
import Allowance.Proofs.Text.Numeral
import Mathlib.Data.List.Induction
import Mathlib.Data.List.TakeWhile
import Mathlib.Data.Nat.Digits.Defs

/-! # Names of arguments

An argument is named by its number in brackets, in decimal digits. Every text of that form is
understood, and so are two others: the digits may be those of any script, and a line feed may follow
the bracket. Nothing else names an argument.
-/

namespace Allowance

open Checked Text

namespace Resource

variable {s : String} {ds : List Char} {c : Char} {n : Nat}

structure Spells (s : String) (ds : List Char) : Prop where
  ne_nil : ds ≠ []
  digits : ∀ c ∈ ds, isDigit c = true
  text : s = argumentText (String.ofList ds) ∨ s = argumentText (String.ofList ds) ++ "\n"

/-- The text is the documented name of an argument: `ARGUMENTS[`, ASCII digits that denote its
number, and `]`. -/
def Documented (s : String) (n : Nat) : Prop :=
  ∃ ds, ds ≠ [] ∧ (∀ c ∈ ds, isAsciiDigit c = true) ∧ digitsValue ds = n ∧
    s = "ARGUMENTS[" ++ String.ofList ds ++ "]"

/-- The number is found if the text has the documented form, and none if it has another. -/
def Conforms (s : String) : Prop :=
  ∃ found, argumentIndex s = .ok found ∧ ∀ n, found = some n ↔ Documented s n

/-- The text is understood although it is no documented name, or has too many digits to be read. -/
def Strays (s : String) : Prop :=
  ∃ ds, Spells s ds ∧ ((∃ c ∈ ds, isAsciiDigit c = false) ∨
    s = argumentText (String.ofList ds) ++ "\n" ∨ maxDigits < ds.length)

section Digits

theorem digit?_of_isAsciiDigit (h : isAsciiDigit c = true) : digit? c = some (c.toNat - 48) := by
  obtain ⟨hge, hle⟩ := isAsciiDigit_iff.mp h
  have hfirst : (48 ≤ c.toNat && c.toNat < 48 + 10) = true := by
    simp only [Bool.and_eq_true, decide_eq_true_eq]
    omega
  have hfound : digitZeros.find? (fun first => first ≤ c.toNat && c.toNat < first + 10) = some 48 :=
    List.find?_cons_of_pos hfirst
  rw [digit?, hfound, Option.map_some]

theorem isDigit_of_isAsciiDigit (h : isAsciiDigit c = true) : isDigit c = true := by
  rw [isDigit, digit?_of_isAsciiDigit h]
  rfl

theorem scriptValue_append_singleton :
    scriptValue (ds ++ [c]) = 10 * scriptValue ds + (digit? c).getD 0 := by
  rw [scriptValue, List.foldl_append]
  rfl

theorem scriptValue_eq (h : ∀ c ∈ ds, isDigit c = true) :
    scriptValue ds = Nat.ofDigits 10 (ds.reverse.filterMap digit?) := by
  induction ds using List.reverseRecOn with
  | nil => rfl
  | append_singleton ds c ih =>
    obtain ⟨d, hd⟩ := Option.isSome_iff_exists.mp (h c (by simp))
    have hds := ih fun c hc => h c (List.mem_append_left _ hc)
    rw [scriptValue_append_singleton, List.reverse_append, List.reverse_singleton,
      List.singleton_append, List.filterMap_cons_some hd, Nat.ofDigits_cons, hds, hd,
      Option.getD_some]
    omega

theorem scriptValue_of_ascii (h : ∀ c ∈ ds, isAsciiDigit c = true) :
    scriptValue ds = digitsValue ds := by
  induction ds using List.reverseRecOn with
  | nil => rfl
  | append_singleton ds c ih =>
    have hds := ih fun c hc => h c (List.mem_append_left _ hc)
    rw [scriptValue_append_singleton, digitsValue_append_singleton, hds,
      digit?_of_isAsciiDigit (h c (by simp)), Option.getD_some]

end Digits

section Spelling

theorem Spells.argumentDigits? (h : Spells s ds) : argumentDigits? s = some ds := by
  rcases h.text with rfl | rfl
  · exact argumentDigits?_argumentText h.ne_nil h.digits
  · exact argumentDigits?_of_toList h.ne_nil h.digits (Or.inr rfl) (by simp [argumentText])

theorem spells_of_argumentDigits? (h : argumentDigits? s = some ds) : Spells s ds := by
  simp only [Resource.argumentDigits?, List.span_eq_takeWhile_dropWhile] at h
  split at h
  case isFalse => cases h
  case isTrue hopening =>
    obtain ⟨rest, hrest⟩ := List.isPrefixOf_iff_prefix.mp hopening
    rw [← hrest, List.drop_left] at h
    split at h
    case isFalse => cases h
    case isTrue hform =>
      obtain rfl := Option.some.inj h
      simp only [Bool.and_eq_true, Bool.not_eq_true', List.isEmpty_eq_false_iff, Bool.or_eq_true,
        beq_iff_eq] at hform
      refine ⟨hform.1, fun c hc => List.mem_takeWhile_imp hc, ?_⟩
      have hs : s.toList =
          "ARGUMENTS[".toList ++ (rest.takeWhile isDigit ++ rest.dropWhile isDigit) := by
        rw [List.takeWhile_append_dropWhile, hrest]
      refine hform.2.imp (fun hafter => ?_) fun hafter => ?_
      · exact String.toList_injective (by simp [argumentText, hs, hafter])
      · exact String.toList_injective (by simp [argumentText, hs, hafter])

theorem Spells.unique {others : List Char} (h : Spells s ds) (h' : Spells s others) :
    ds = others :=
  Option.some.inj (h.argumentDigits?.symm.trans h'.argumentDigits?)

theorem Spells.argumentIndex (h : Spells s ds) : argumentIndex s =
    if maxDigits < ds.length then misuse .badValue
    else .ok (some (Nat.ofDigits 10 (ds.reverse.filterMap digit?))) := by
  simp only [Resource.argumentIndex, h.argumentDigits?, scriptValue_eq h.digits]

theorem argumentIndex_eq_none (h : ∀ ds, ¬ Spells s ds) : argumentIndex s = .ok none := by
  have hnone : argumentDigits? s = none :=
    Option.eq_none_iff_forall_ne_some.mpr fun ds hds => h ds (spells_of_argumentDigits? hds)
  rw [argumentIndex, hnone]

end Spelling

section Documented

theorem Documented.spells (h : Documented s n) : ∃ ds, Spells s ds ∧
    (∀ c ∈ ds, isAsciiDigit c = true) ∧ digitsValue ds = n ∧
    s = argumentText (String.ofList ds) := by
  obtain ⟨ds, hne, hascii, hvalue, hs⟩ := h
  have hdigits : ∀ c ∈ ds, isDigit c = true := fun c hc => isDigit_of_isAsciiDigit (hascii c hc)
  exact ⟨ds, ⟨hne, hdigits, Or.inl hs⟩, hascii, hvalue, hs⟩

theorem argumentText_ne_lineFeed : argumentText s ≠ argumentText s ++ "\n" := by
  intro h
  have hlength := congrArg (fun t : String => t.toList.length) h
  simp at hlength

theorem Strays.not_conforms (h : Strays s) : ¬ Conforms s := by
  rintro ⟨found, hfound, hdocumented⟩
  obtain ⟨ds, hspells, hcause⟩ := h
  rw [hspells.argumentIndex] at hfound
  split at hfound
  · cases hfound
  · rename_i hshort
    have hn := (hdocumented _).mp (Except.ok.inj hfound).symm
    obtain ⟨others, hothers, hascii, -, hs⟩ := hn.spells
    obtain rfl := hspells.unique hothers
    rcases hcause with ⟨c, hc, hno⟩ | hfeed | hlong
    · simp [hascii c hc] at hno
    · exact argumentText_ne_lineFeed (hs.symm.trans hfeed)
    · exact hshort hlong

theorem conforms_of_not_strays (h : ¬ Strays s) : Conforms s := by
  by_cases hspells : ∃ ds, Spells s ds
  · obtain ⟨ds, hspells⟩ := hspells
    have hascii : ∀ c ∈ ds, isAsciiDigit c = true := by
      intro c hc
      by_contra hno
      exact h ⟨ds, hspells, Or.inl ⟨c, hc, Bool.not_eq_true _ ▸ hno⟩⟩
    have hs : s = argumentText (String.ofList ds) :=
      hspells.text.resolve_right fun hfeed => h ⟨ds, hspells, Or.inr (Or.inl hfeed)⟩
    have hshort : ¬ maxDigits < ds.length := fun hlong =>
      h ⟨ds, hspells, Or.inr (Or.inr hlong)⟩
    have hindex := hspells.argumentIndex
    rw [if_neg hshort, ← scriptValue_eq hspells.digits, scriptValue_of_ascii hascii] at hindex
    refine ⟨_, hindex, fun n => ⟨fun hn => ?_, fun hn => ?_⟩⟩
    · exact ⟨ds, hspells.ne_nil, hascii, Option.some.inj hn, hs⟩
    · obtain ⟨others, hothers, -, rfl, -⟩ := hn.spells
      rw [hspells.unique hothers]
  · rw [not_exists] at hspells
    refine ⟨none, argumentIndex_eq_none hspells, fun n => iff_of_false nofun fun hn => ?_⟩
    obtain ⟨ds, hds, -⟩ := hn.spells
    exact hspells ds hds

theorem argumentIndex_argumentText (h : (digits n).length ≤ maxDigits) :
    argumentIndex (argumentText (natText n)) = .ok (some n) := by
  have hascii := isAsciiDigit_of_mem_digits n
  have hspells : Spells (argumentText (natText n)) (digits n) :=
    ⟨digits_ne_nil n, fun c hc => isDigit_of_isAsciiDigit (hascii c hc), Or.inl rfl⟩
  rw [hspells.argumentIndex, if_neg (Nat.not_lt.mpr h), ← scriptValue_eq hspells.digits,
    scriptValue_of_ascii hascii, digitsValue_digits]

end Documented

/-- What a condition may have as its resource: the value, one of the addresses, or an argument under
a documented name, or else under one that strays. -/
theorem forms_of_ofJson {v : Json} {c : Condition} (h : Condition.ofJson v = .ok c) :
    c.resource.text ∈ ["VALUE", "TO_ADDRESS", "FROM_ADDRESS"] ∨
      (∃ n, Documented c.resource.text n) ∨ Strays c.resource.text := by
  have hnamed := exists_ofText?_iff.mp ⟨_, (Condition.wellFormed_of_ofJson h).1⟩
  rcases hnamed with hvalue | hrecipient | hsender | ⟨n, hn⟩
  · exact Or.inl (by simp [hvalue])
  · exact Or.inl (by simp [hrecipient])
  · exact Or.inl (by simp [hsender])
  · refine Or.inr ((em (Strays c.resource.text)).symm.imp_left fun hstays => ?_)
    obtain ⟨found, hfound, hdocumented⟩ := conforms_of_not_strays hstays
    obtain rfl := Except.ok.inj (hn.symm.trans hfound)
    exact ⟨n, (hdocumented n).mp rfl⟩

/-- The number of an argument is found in a text of the documented form, and nothing in one of
another form, just if the text does not stray. A text that strays is understood too, unless it has
too many digits. The usual spelling of a number has that number, and no condition has a resource
besides these. -/
theorem argumentIndex_documented (s : String) :
    (Conforms s ↔ ¬ Strays s) ∧
    (∀ ds, Spells s ds → argumentIndex s =
      if maxDigits < ds.length then misuse .badValue
      else .ok (some (Nat.ofDigits 10 (ds.reverse.filterMap digit?)))) ∧
    (∀ n, s = argumentText (natText n) → (digits n).length ≤ maxDigits →
      argumentIndex s = .ok (some n)) ∧
    ∀ v c, Condition.ofJson v = .ok c → c.resource.text = s →
      s ∈ ["VALUE", "TO_ADDRESS", "FROM_ADDRESS"] ∨ (∃ n, Documented s n) ∨ Strays s := by
  refine ⟨⟨fun h hstrays => hstrays.not_conforms h, conforms_of_not_strays⟩,
    fun _ => Spells.argumentIndex, ?_, ?_⟩
  · rintro n rfl hshort
    exact argumentIndex_argumentText hshort
  · rintro v c hread rfl
    exact forms_of_ofJson hread

def conditionOn (resource : String) : Json := .object [
  ("resource", .string resource), ("comparator", .string "EQUALS"), ("reference", .string "toffee")]

theorem ofJson_conditionOn {index : Nat} (h : ofText? s = .ok (some (.argument s index))) :
    Condition.ofJson (conditionOn s) = .ok ⟨.argument s index, .equalsText "toffee"⟩ :=
  Condition.ofJson_eq_ok.mpr ⟨⟨rfl, rfl, rfl, rfl⟩, h, trivial⟩

theorem spells_ten : Spells "ARGUMENTS[10]" ['1', '0'] :=
  spells_of_argumentDigits? (by decide +kernel)

theorem not_strays_ten : ¬ Strays "ARGUMENTS[10]" := by
  rintro ⟨ds, hspells, hcause⟩
  obtain rfl := hspells.unique spells_ten
  rcases hcause with ⟨c, hc, hother⟩ | hfeed | hlong
  · rcases List.mem_pair.mp hc with rfl | rfl <;> exact absurd hother (by decide)
  · exact absurd hfeed (by decide +kernel)
  · exact absurd hlong (by decide)

theorem argumentIndex_documented_ten :
    Conforms "ARGUMENTS[10]" ∧ argumentIndex "ARGUMENTS[10]" = .ok (some 10) ∧
    argumentIndex (argumentText (natText 10)) = .ok (some 10) ∧
    ∃ c, Condition.ofJson (conditionOn "ARGUMENTS[10]") = .ok c ∧
      ("ARGUMENTS[10]" ∈ ["VALUE", "TO_ADDRESS", "FROM_ADDRESS"] ∨
        (∃ n, Documented "ARGUMENTS[10]" n) ∨ Strays "ARGUMENTS[10]") := by
  obtain ⟨hconforms, hspells, -, hcondition⟩ := argumentIndex_documented "ARGUMENTS[10]"
  obtain ⟨-, -, htext, -⟩ := argumentIndex_documented (argumentText (natText 10))
  have hresource : ofText? "ARGUMENTS[10]" = .ok (some (.argument "ARGUMENTS[10]" 10)) := by rfl
  have hread := ofJson_conditionOn hresource
  refine ⟨hconforms.mpr not_strays_ten, hspells _ spells_ten, htext 10 rfl ?_, _, hread,
    hcondition _ _ hread rfl⟩
  decide +kernel

/-- A line feed after the bracket and the digit of another script are taken for the documented name,
also in a condition. -/
theorem argumentIndex_strays :
    (argumentIndex "ARGUMENTS[0]\n" = .ok (some 0) ∧ (∀ n, ¬ Documented "ARGUMENTS[0]\n" n) ∧
      ∃ c, Condition.ofJson (conditionOn "ARGUMENTS[0]\n") = .ok c) ∧
    argumentIndex "ARGUMENTS[٣]" = .ok (some 3) ∧ (∀ n, ¬ Documented "ARGUMENTS[٣]" n) ∧
      ∃ c, Condition.ofJson (conditionOn "ARGUMENTS[٣]") = .ok c := by
  have hfeed : ofText? "ARGUMENTS[0]\n" = .ok (some (.argument "ARGUMENTS[0]\n" 0)) := by rfl
  have hscript : ofText? "ARGUMENTS[٣]" = .ok (some (.argument "ARGUMENTS[٣]" 3)) := by rfl
  have hzero : Spells "ARGUMENTS[0]\n" ['0'] := spells_of_argumentDigits? (by decide +kernel)
  have hthree : Spells "ARGUMENTS[٣]" ['٣'] := spells_of_argumentDigits? (by decide +kernel)
  refine ⟨⟨rfl, fun n hn => ?_, _, ofJson_conditionOn hfeed⟩,
    rfl, fun n hn => ?_, _, ofJson_conditionOn hscript⟩
  · obtain ⟨ds, hds, -, -, hs⟩ := hn.spells
    obtain rfl := hds.unique hzero
    exact absurd hs (by decide +kernel)
  · obtain ⟨ds, hds, hascii, -⟩ := hn.spells
    obtain rfl := hds.unique hthree
    exact absurd (hascii '٣' List.mem_cons_self) (by decide)

end Resource

end Allowance
