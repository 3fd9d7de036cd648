import Allowance.Proofs.Document.Shape
import Mathlib.Data.List.TakeDrop

/-! # Which conditions are valid

A value of the shape of a condition is read as one exactly when it is valid: its fields are there,
its words are known, it names a resource, and its reference goes with its comparator. Any other is
refused with a cause, unless it names an argument by a number that has too many digits.
-/

namespace Allowance

open Checked Json Text

open Document (Undeclared)

variable {kind : Fault → Prop} {u v : Json} {α : Type} {x : Checked α}

theorem DocumentError.decides (hdocument : ∀ e, kind (.document e)) (h : ¬ Fails Undeclared x) :
    Decides kind x (∃ a, x = .ok a) := by
  refine ⟨id, fun hno => ?_⟩
  cases x with
  | ok a => exact absurd ⟨a, rfl⟩ hno
  | error f =>
    by_cases hf : ∃ e, f = .document e
    · obtain ⟨e, rfl⟩ := hf
      exact ⟨_, rfl, hdocument e⟩
    · exact absurd ⟨f, rfl, not_exists.mp hf⟩ h

namespace Json

variable {fields : Fields} {names : List String} {part what : String} {words : List String}
  {ofWord? : String → Option α} {word : α → String}

theorem decides_requireFields (hdocument : ∀ e, kind (.document e)) :
    Decides kind ((object fields).requireFields part names)
      (∀ name ∈ names, ∃ u, fields.lookup name = some u) := by
  refine (DocumentError.decides hdocument not_fails_requireFields).congr ?_
  simp only [← object_mentions_iff]
  rw [← requireFields_passes_iff, or_iff_right not_fails_requireFields]
  exact ⟨fun ⟨_, h⟩ => h, fun h => ⟨_, h⟩⟩

/-- Where the fields of a valid object are all there, the rest decides whether it is valid. -/
theorem decides_of_fields {f : Unit → Checked α} {P : Prop} (hdocument : ∀ e, kind (.document e))
    (hpresent : P → ∀ name ∈ names, ∃ u, fields.lookup name = some u)
    (hf : (∀ name ∈ names, ∃ u, fields.lookup name = some u) → Decides kind (f ()) P) :
    Decides kind ((object fields).requireFields part names >>= f) P := by
  have hfields : Decides kind ((object fields).requireFields part names) _ :=
    decides_requireFields hdocument
  exact (hfields.bind fun _ hrequired => hf (hfields.holds hrequired)).congr
    (and_iff_right_of_imp hpresent)

theorem wordOf_eq_ok (hword : ∀ s a, ofWord? s = some a ↔ s = word a) {a : α} :
    v.wordOf what words ofWord? = .ok a ↔ v = .string (word a) := by
  constructor
  · intro h
    unfold wordOf at h
    split at h
    · rename_i meaning hmeaning
      obtain rfl := Except.ok.inj h
      obtain ⟨s, hs, hmeaning⟩ := Option.bind_eq_some_iff.mp hmeaning
      obtain rfl := (hword s meaning).mp hmeaning
      cases v <;> simp_all [text?]
    · exact absurd h DocumentError.throw_ne_ok
  · rintro rfl
    exact wordOf_string what words ((hword _ _).mpr rfl)

theorem decides_wordOf (hdocument : ∀ e, kind (.document e))
    (hword : ∀ s a, ofWord? s = some a ↔ s = word a) :
    Decides kind (v.wordOf what words ofWord?) (∃ a, v = .string (word a)) := by
  have hdeclared : ¬ Fails Undeclared (v.wordOf what words ofWord?) := by
    unfold wordOf
    split <;> simp
  exact (DocumentError.decides hdocument hdeclared).congr
    (exists_congr fun _ => wordOf_eq_ok hword)

theorem required_eq_ok {name : String} : v.required name = .ok u ↔ v.get? name = some u := by
  cases v with
  | object fields => cases h : fields.lookup name <;> simp [required, h]
  | _ => simp [required, get?, fields?]

end Json

theorem Effect.ofWord?_iff (s : String) (e : Effect) : ofWord? s = some e ↔ s = e.word :=
  ⟨fun h => (word_of_ofWord? h).symm, fun h => h ▸ ofWord?_word e⟩

theorem Action.ofWord?_iff (s : String) (a : Action) : ofWord? s = some a ↔ s = a.word :=
  ⟨fun h => (word_of_ofWord? h).symm, fun h => h ▸ ofWord?_word a⟩

theorem Comparator.ofWord?_iff (s : String) (c : Comparator) : ofWord? s = some c ↔ s = c.word :=
  ⟨fun h => (word_of_ofWord? h).symm, fun h => h ▸ ofWord?_word c⟩

def Comparator.Takes : Comparator → Json → Prop
  | equals, v => v.IsFinite ∨ v.IsText
  | greaterThan, v => v.IsFinite
  | lessThan, v => v.IsFinite
  | includedIn, v => v.IsTexts
  | notIncludedIn, v => v.IsTexts

namespace Test

variable {c : Comparator} {t : Test}

theorem texts_of_listOf {listed : List String} (h : listOf c v = .ok listed) :
    v = .ofTexts listed := by
  unfold listOf at h
  split at h
  · split at h
    · rename_i hlisted
      obtain rfl := Except.ok.inj h
      rw [ofTexts, texts?_eq_some.mp hlisted]
    · cases h
  · cases h

theorem number_of_numberOf {n : Number} (h : numberOf c v = .ok n) : v = .number n := by
  obtain ⟨found, hfound, h⟩ := bind_eq_ok.mp h
  cases found with
  | none => cases h
  | some m =>
    obtain rfl := pure_eq_ok.mp h
    exact (number_of_finite? hfound).1

theorem eq_of_of (h : Test.of c v = .ok t) : t.comparator = c ∧ t.reference = v := by
  cases c with
  | includedIn =>
    obtain ⟨_, hlisted, rfl⟩ := map_eq_ok.mp h
    exact ⟨rfl, (texts_of_listOf hlisted).symm⟩
  | notIncludedIn =>
    obtain ⟨_, hlisted, rfl⟩ := map_eq_ok.mp h
    exact ⟨rfl, (texts_of_listOf hlisted).symm⟩
  | greaterThan =>
    obtain ⟨_, hn, rfl⟩ := map_eq_ok.mp h
    exact ⟨rfl, (number_of_numberOf hn).symm⟩
  | lessThan =>
    obtain ⟨_, hn, rfl⟩ := map_eq_ok.mp h
    exact ⟨rfl, (number_of_numberOf hn).symm⟩
  | equals =>
    simp only [Test.of] at h
    split at h
    · obtain rfl := Except.ok.inj h
      exact ⟨rfl, rfl⟩
    · obtain ⟨found, hfound, h⟩ := bind_eq_ok.mp h
      cases found with
      | none => cases h
      | some n =>
        obtain rfl := pure_eq_ok.mp h
        exact ⟨rfl, (number_of_finite? hfound).1.symm⟩

theorem exists_iff_takes :
    (∃ t : Test, t.comparator = c ∧ t.reference = v ∧ t.WellFormed) ↔ c.Takes v := by
  constructor
  · rintro ⟨t, rfl, rfl, h⟩
    cases t with
    | equalsNumber n => exact Or.inl ⟨n, rfl, h⟩
    | equalsText s => exact Or.inr ⟨s, rfl⟩
    | greaterThan n => exact ⟨n, rfl, h⟩
    | lessThan n => exact ⟨n, rfl, h⟩
    | includedIn listed => exact ⟨listed, rfl⟩
    | notIncludedIn listed => exact ⟨listed, rfl⟩
  · intro h
    cases c with
    | equals =>
      rcases h with ⟨n, rfl, hn⟩ | ⟨s, rfl⟩
      · exact ⟨.equalsNumber n, rfl, rfl, hn⟩
      · exact ⟨.equalsText s, rfl, rfl, trivial⟩
    | greaterThan =>
      obtain ⟨n, rfl, hn⟩ := h
      exact ⟨.greaterThan n, rfl, rfl, hn⟩
    | lessThan =>
      obtain ⟨n, rfl, hn⟩ := h
      exact ⟨.lessThan n, rfl, rfl, hn⟩
    | includedIn =>
      obtain ⟨listed, rfl⟩ := h
      exact ⟨.includedIn listed, rfl, rfl, trivial⟩
    | notIncludedIn =>
      obtain ⟨listed, rfl⟩ := h
      exact ⟨.notIncludedIn listed, rfl, rfl, trivial⟩

end Test

namespace Resource

variable {s : String} {resource : Resource}

def Named (s : String) : Prop :=
  s = "VALUE" ∨ s = "TO_ADDRESS" ∨ s = "FROM_ADDRESS" ∨ ∃ n, argumentIndex s = .ok (some n)

theorem ofText?_eq_ok :
    ofText? s = .ok (some resource) ↔ resource.text = s ∧ resource.WellFormed := by
  constructor
  · exact fun h => ⟨text_of_ofText? h, wellFormed_of_ofText? h⟩
  · rintro ⟨rfl, h⟩
    exact h

theorem exists_ofText?_iff : (∃ resource, ofText? s = .ok (some resource)) ↔ Named s := by
  unfold ofText? Named
  split
  · rename_i hs
    simp [hs]
  split
  · rename_i hs
    simp [hs]
  split
  · rename_i hs
    simp [hs]
  · rename_i hvalue hrecipient hsender
    simp only [hvalue, hrecipient, hsender, false_or, bind_eq_ok, pure_eq_ok,
      Option.map_eq_some_iff]
    constructor
    · rintro ⟨_, _, hindex, n, rfl, -⟩
      exact ⟨n, hindex⟩
    · rintro ⟨n, hindex⟩
      exact ⟨_, _, hindex, n, rfl, rfl⟩

theorem ofText?_eq_error {f : Fault} (h : ofText? s = .error f) : f = .misuse .badValue := by
  unfold ofText? argumentIndex at h
  split at h
  · cases h
  split at h
  · cases h
  split at h
  · cases h
  split at h
  · cases h
  split at h
  · exact (Except.error.inj h).symm
  · cases h

/-- The digits of an argument's number stand in the brackets, after which a line feed may follow. -/
theorem argumentDigits?_of_toList {ds after : List Char} (hne : ds ≠ [])
    (h : ∀ c ∈ ds, isDigit c = true) (hafter : after = [']'] ∨ after = [']', '\n'])
    (hs : s.toList = "ARGUMENTS[".toList ++ (ds ++ after)) : argumentDigits? s = some ds := by
  have hbracket : isDigit ']' = false := by decide +kernel
  have htake : (ds ++ after).takeWhile isDigit = ds := by
    rcases hafter with rfl | rfl <;> simp [List.takeWhile_append_of_pos h, hbracket]
  have hdrop : (ds ++ after).dropWhile isDigit = after := by
    rcases hafter with rfl | rfl <;> simp [List.dropWhile_append_of_pos h, hbracket]
  simp [argumentDigits?, hs, List.span_eq_takeWhile_dropWhile, htake, hdrop, hne, hafter]

theorem argumentDigits?_argumentText {ds : List Char} (hne : ds ≠ [])
    (h : ∀ c ∈ ds, isDigit c = true) :
    argumentDigits? (argumentText (String.ofList ds)) = some ds :=
  argumentDigits?_of_toList hne h (Or.inl rfl) (by simp [argumentText])

end Resource

namespace Condition

variable {c : Condition} {fields : Fields}

theorem typeWord_iff (s : String) (u : Unit) :
    (if s = typeWord then some () else none) = some u ↔ s = typeWord := by
  simp

theorem ofJson_eq_ok : ofJson (.object fields) = .ok c ↔
    HasHead fields c.resource.text c.test.comparator c.test.reference ∧ c.WellFormed := by
  constructor
  · intro h
    refine ⟨?_, wellFormed_of_ofJson h⟩
    simp only [ofJson, bind_eq_ok, required_eq_ok, get?_object,
      wordOf_eq_ok Comparator.ofWord?_iff, wordOf_eq_ok typeWord_iff] at h
    obtain ⟨_, -, _, htype, _, rfl, resource, hresource, _, hcomparator, _, rfl, reference,
      hreference, h⟩ := h
    obtain ⟨_, ⟨⟩, htype⟩ := fieldOr_eq_ok.mp htype
    cases resource with
    | string s =>
      obtain ⟨found, hfound, h⟩ := bind_eq_ok.mp h
      cases found with
      | none => exact absurd h DocumentError.throw_ne_ok
      | some named =>
        obtain ⟨test, htest, h⟩ := bind_eq_ok.mp h
        obtain rfl := pure_eq_ok.mp h
        obtain ⟨rfl, rfl⟩ := Test.eq_of_of htest
        rw [← Resource.text_of_ofText? hfound] at hresource
        exact ⟨htype, hresource, hcomparator, hreference⟩
    | _ => exact absurd h DocumentError.throw_ne_ok
  · rintro ⟨hhead, hresource, htest⟩
    have hnamed : Resource.ofText? c.resource.text = .ok (some c.resource) := hresource
    rw [hhead.ofJson_eq, hnamed, ok_bind, Option.elim_some, Test.of_reference htest]
    rfl

structure Valid (v : Json) : Prop where
  type : ∀ u, v.get? "type" = some u → u = .string typeWord
  resource : ∃ s, v.get? "resource" = some (.string s) ∧ Resource.Named s
  test : ∃ (c : Comparator) (u : Json), v.get? "comparator" = some (.string c.word) ∧
    v.get? "reference" = some u ∧ c.Takes u

def LongIndexed (v : Json) : Prop := ∃ s digits, v.get? "resource" = some (.string s) ∧
  Resource.argumentDigits? s = some digits ∧ maxDigits < digits.length

theorem exists_ofJson_iff : (∃ c, ofJson (.object fields) = .ok c) ↔ Valid (.object fields) := by
  simp only [ofJson_eq_ok]
  constructor
  · rintro ⟨c, hhead, hresource, htest⟩
    refine ⟨fun u hu => ?_, ⟨_, hhead.resource, ?_⟩,
      ⟨_, _, hhead.comparator, hhead.reference, Test.exists_iff_takes.mp ⟨_, rfl, rfl, htest⟩⟩⟩
    · simpa [get?_object.symm.trans hu] using hhead.type
    · exact Resource.exists_ofText?_iff.mp ⟨_, hresource⟩
  · rintro ⟨htype, ⟨s, hs, hnamed⟩, c, u, hc, hu, htakes⟩
    obtain ⟨resource, hresource⟩ := Resource.exists_ofText?_iff.mpr hnamed
    obtain ⟨rfl, hwell⟩ := Resource.ofText?_eq_ok.mp hresource
    obtain ⟨t, rfl, rfl, ht⟩ := Test.exists_iff_takes.mpr htakes
    refine ⟨⟨resource, t⟩, ⟨?_, hs, hc, hu⟩, hwell, ht⟩
    cases hfound : fields.lookup "type" with
    | none => rfl
    | some u => exact htype u hfound

/-- Of conditions of the shape only the long-indexed ones are not refused with a cause. -/
theorem Derails.longIndexed (hd : Derails v) (h : v.Fits wire) :
    LongIndexed v ∧ ofJson v = .error (.misuse .badValue) := by
  cases hd with
  | unnoticed hunnoticed =>
    obtain ⟨fields, rfl, -⟩ := h
    cases hunnoticed.1
  | longIndex hhead hdigits hlong =>
    refine ⟨⟨_, _, hhead.resource, hdigits, hlong⟩, ?_⟩
    obtain ⟨f, hf, -⟩ := Resource.fails_ofText?_iff.mpr ⟨_, hdigits, hlong⟩
    rw [hhead.ofJson_eq, hf, Resource.ofText?_eq_error hf]
    rfl
  | huge hhead _ hhuge _ =>
    rcases h.admits (w := wire.fields[3]) (List.getElem_mem _) hhead.reference with hu | hu | hu
    · exact absurd hhuge hu.not_huge
    · obtain ⟨_, rfl⟩ := hu
      obtain ⟨_, ⟨⟩, -⟩ := hhuge
    · obtain ⟨_, rfl⟩ := hu
      obtain ⟨_, ⟨⟩, -⟩ := hhuge

theorem decides_ofJson (hdocument : ∀ e, kind (.document e))
    (hlong : LongIndexed v → kind (.misuse .badValue)) (h : v.Fits wire) :
    Decides kind (ofJson v) (Valid v) := by
  by_cases hderails : Derails v
  · obtain ⟨hindexed, hfault⟩ := hderails.longIndexed h
    obtain ⟨fields, rfl, -⟩ := h
    refine ⟨exists_ofJson_iff.mpr, fun _ => ⟨_, hfault, hlong hindexed⟩⟩
  · obtain ⟨fields, rfl, -⟩ := h
    exact (DocumentError.decides hdocument (mt fails_ofJson_iff.mp hderails)).congr
      exists_ofJson_iff

theorem toJson_eq_completed (h : v.Fits wire) (hc : ofJson v = .ok c) :
    c.toJson = v.completed wire := by
  obtain ⟨fields, rfl, -⟩ := h
  obtain ⟨⟨htype, hresource, hcomparator, hreference⟩, -⟩ := ofJson_eq_ok.mp hc
  rw [typeWord] at htype
  simp [toJson, completed, wire, htype, hresource, hcomparator, hreference, typeWord]

end Condition

end Allowance
