import Allowance.Proofs.Document.Reading
import Allowance.Proofs.Json.Sets

/-! # What derails the reading of a document

A document that is not accepted is refused with a cause, unless a value in it is put to a use that
its kind or its size does not admit. A part may be no object and still mention the fields that it
needs; a number or a boolean may stand where parts are listed; names that scopes share may be no
texts; and an integer may be too large, or have too many digits. Each level of the document says
which values derail it, after what else was accepted, and nothing else does.
-/

namespace Allowance

open Checked Text

variable {v : Json}

def Document.Undeclared (f : Fault) : Prop := ∀ e, f ≠ .document e

open Document (Undeclared)

theorem Comparator.word_of_ofWord? {s : String} {c : Comparator} (h : ofWord? s = some c) :
    c.word = s := by
  simpa using List.find?_some h

theorem Effect.word_of_ofWord? {s : String} {e : Effect} (h : ofWord? s = some e) :
    e.word = s := by
  simpa using List.find?_some h

theorem Action.word_of_ofWord? {s : String} {a : Action} (h : ofWord? s = some a) :
    a.word = s := by
  simpa using List.find?_some h

theorem Document.undeclared_misuse (m : Misuse) : Undeclared (.misuse m) := nofun

@[simp] theorem DocumentError.not_fails_throw {α : Type} {e : DocumentError} :
    ¬ Fails Undeclared (e.throw : Checked α) := by
  rintro ⟨_, ⟨⟩, h⟩
  exact h e rfl

@[simp] theorem DocumentError.throw_bind {α β : Type} {e : DocumentError} {f : α → Checked β} :
    (e.throw >>= f) = e.throw := rfl

namespace Json

variable {α β : Type} {names : List String} {part : String} {f : Unit → Checked β}
  {read : Json → Checked α} {derails : Json → Prop} {g : List α → Checked β}

/-- The value is no object, but it is not found out that fields are missing: they are mentioned, or
it does not admit the question. -/
def Unnoticed (v : Json) (names : List String) : Prop :=
  v.fields? = none ∧ ∀ name ∈ names, v.mentions name ≠ .ok false

/-- A part cannot be gone through, or one of its parts derails after the earlier ones were read. -/
def PartDerails (read : Json → Checked α) (derails : Json → Prop) (v : Json) : Prop :=
  (v.truthy = true ∧ v.IsSolid) ∨ ∃ earlier part later,
    v.partsIfAny = .ok (earlier ++ part :: later) ∧ (∀ other ∈ earlier, ∃ a, read other = .ok a) ∧
      derails part

/-- Whether a question for a field is admitted does not depend on the field. -/
theorem mentions_eq_error {name : String} {e : Fault} (h : v.mentions name = .error e) :
    e = .misuse .wrongKind ∧ ∀ other, v.mentions other = .error e := by
  cases v with
  | object fields => cases h
  | array items => cases h
  | string s => cases h
  | _ =>
    obtain rfl := Except.error.inj h
    exact ⟨rfl, fun _ => rfl⟩

theorem object_mentions_iff {fields : Fields} {name : String} :
    (object fields).mentions name ≠ .ok false ↔ ∃ value, fields.lookup name = some value := by
  rw [mentions, Ne, Except.ok.injEq, Bool.not_eq_false, Option.isSome_iff_exists]

theorem not_fails_requireFields {fields : Fields} :
    ¬ Fails Undeclared ((object fields).requireFields part names) := by
  induction names with
  | nil => exact not_fails_ok
  | cons name names ih =>
    simp only [requireFields, mentions, ok_bind]
    split
    · exact ih
    · exact DocumentError.not_fails_throw

theorem requireFields_passes_iff :
    Fails Undeclared (v.requireFields part names) ∨ v.requireFields part names = .ok () ↔
      ∀ name ∈ names, v.mentions name ≠ .ok false := by
  induction names with
  | nil => simp [requireFields]
  | cons name names ih =>
    rw [requireFields, List.forall_mem_cons]
    cases hmentions : v.mentions name with
    | error e =>
      obtain ⟨rfl, hrest⟩ := mentions_eq_error hmentions
      simp [hrest, Document.undeclared_misuse]
    | ok b =>
      cases b with
      | true => simpa using ih
      | false => simp

/-- A part whose lack of fields is not noticed fails as soon as a field is taken. -/
theorem Unnoticed.fails (h : v.Unnoticed names) (hf : Fails Undeclared (f ())) :
    Fails Undeclared (v.requireFields part names >>= f) := by
  rw [fails_bind]
  exact (requireFields_passes_iff.mpr h.2).imp_right fun hok => ⟨(), hok, hf⟩

theorem unnoticed_or_object (h : Fails Undeclared (v.requireFields part names >>= f)) :
    v.Unnoticed names ∨ ∃ fields, v = .object fields ∧
      (∀ name ∈ names, ∃ value, fields.lookup name = some value) ∧ Fails Undeclared (f ()) := by
  rw [fails_bind] at h
  have hpasses := requireFields_passes_iff.mp (h.imp_right fun ⟨_, hok, _⟩ => hok)
  cases v with
  | object fields =>
    obtain ⟨_, -, hfails⟩ := h.resolve_left not_fails_requireFields
    have hlookup : ∀ name ∈ names, ∃ value, fields.lookup name = some value :=
      fun name hname => object_mentions_iff.mp (hpasses name hname)
    exact Or.inr ⟨fields, rfl, hlookup, hfails⟩
  | _ => exact Or.inl ⟨rfl, hpasses⟩

theorem fails_partsIfAny_iff : Fails Undeclared v.partsIfAny ↔ v.truthy = true ∧ v.IsSolid := by
  have hnull : v.truthy = true → v ≠ .null := by
    rintro h rfl
    cases h
  unfold partsIfAny
  split
  · rename_i htruthy
    simp [fails_parts_iff, Document.undeclared_misuse, htruthy, hnull htruthy]
  · rename_i htruthy
    simp [htruthy]

theorem fails_partsIfAny_bind_iff (hread : ∀ u, Fails Undeclared (read u) ↔ derails u) :
    (Fails Undeclared (v.partsIfAny >>= fun parts => parts.mapM read >>= g)) ↔
      v.PartDerails read derails ∨ ∃ parts as, v.partsIfAny = .ok parts ∧
        parts.mapM read = .ok as ∧ Fails Undeclared (g as) := by
  simp only [fails_bind, fails_partsIfAny_iff, fails_mapM_iff, hread, PartDerails]
  constructor
  · rintro (hsolid | ⟨parts, hparts, ⟨earlier, part, later, rfl, hpart⟩ | ⟨as, has, hg⟩⟩)
    · exact Or.inl (Or.inl hsolid)
    · exact Or.inl (Or.inr ⟨earlier, part, later, hparts, hpart⟩)
    · exact Or.inr ⟨parts, as, hparts, has, hg⟩
  · rintro ((hsolid | ⟨earlier, part, later, hparts, hpart⟩) | ⟨parts, as, hparts, has, hg⟩)
    · exact Or.inl hsolid
    · exact Or.inr ⟨_, hparts, Or.inl ⟨earlier, part, later, rfl, hpart⟩⟩
    · exact Or.inr ⟨parts, hparts, Or.inr ⟨as, has, hg⟩⟩

theorem fails_required {name : String} (h : v.fields? = none) :
    Fails Undeclared (v.required name) := by
  cases v with
  | object fields => cases h
  | _ => exact ⟨_, rfl, Document.undeclared_misuse _⟩

theorem fails_fieldOr {name : String} {default : Json} (h : v.fields? = none) :
    Fails Undeclared (v.fieldOr name default) :=
  fails_fieldOr_iff.mpr ⟨h, Document.undeclared_misuse _⟩

theorem fails_finite?_bind_iff {f : Option Number → Checked β}
    (hf : ∀ found, ¬ Fails Undeclared (f found)) :
    Fails Undeclared (v.finite? >>= f) ↔ v.IsHuge := by
  simp [fails_bind, fails_finite?_iff, hf, Document.undeclared_misuse]

theorem fails_wordOf_bind_iff {what : String} {words : List String} {ofWord? : String → Option α}
    {f : α → Checked β} : Fails Undeclared (v.wordOf what words ofWord? >>= f) ↔
      ∃ s a, v = .string s ∧ ofWord? s = some a ∧ Fails Undeclared (f a) := by
  cases v with
  | string s => cases hs : ofWord? s <;> simp [wordOf, text?, hs]
  | _ => simp [wordOf, text?]

end Json

namespace Resource

variable {s : String}

theorem fails_ofText?_iff : Fails Undeclared (ofText? s) ↔
    ∃ digits, argumentDigits? s = some digits ∧ maxDigits < digits.length := by
  have hfixed (fixed : String) (hdigits : argumentDigits? fixed = none) (found : Option Resource) :
      Fails Undeclared (.ok found : Checked (Option Resource)) ↔
        ∃ digits, argumentDigits? fixed = some digits ∧ maxDigits < digits.length := by
    simp [hdigits]
  unfold ofText?
  split
  · rename_i hs
    exact hs ▸ hfixed _ rfl _
  split
  · rename_i hs
    exact hs ▸ hfixed _ rfl _
  split
  · rename_i hs
    exact hs ▸ hfixed _ rfl _
  · rw [fails_bind, or_iff_left (by simp), argumentIndex]
    cases argumentDigits? s with
    | none => simp
    | some digits => by_cases hlong : maxDigits < digits.length <;>
        simp [hlong, Document.undeclared_misuse]

end Resource

namespace Test

variable {c : Comparator} {reference : Json}

theorem not_fails_listOf : ¬ Fails Undeclared (listOf c reference) := by
  unfold listOf
  split
  · split <;> simp [Undeclared]
  · simp [Undeclared]

theorem fails_numberOf_iff : Fails Undeclared (numberOf c reference) ↔ reference.IsHuge := by
  refine Json.fails_finite?_bind_iff fun found => ?_
  cases found <;> simp [Undeclared]

theorem fails_of_iff : Fails Undeclared (Test.of c reference) ↔
    reference.IsHuge ∧ c ≠ .includedIn ∧ c ≠ .notIncludedIn := by
  cases c with
  | includedIn => simp [Test.of, not_fails_listOf]
  | notIncludedIn => simp [Test.of, not_fails_listOf]
  | greaterThan => simp [Test.of, fails_numberOf_iff]
  | lessThan => simp [Test.of, fails_numberOf_iff]
  | equals =>
    cases reference with
    | string s => simp [Test.of, Json.IsHuge]
    | _ =>
      simp only [Test.of, ne_eq, reduceCtorEq, not_false_eq_true, and_true]
      refine Json.fails_finite?_bind_iff fun found => ?_
      cases found <;> simp [Undeclared]

end Test

namespace Condition

/-- The fields of a condition are there, its type and its comparator are known, and its resource is
a text. -/
structure HasHead (fields : Json.Fields) (s : String) (c : Comparator) (reference : Json) :
    Prop where
  type : (fields.lookup "type").getD (.string typeWord) = .string typeWord
  resource : fields.lookup "resource" = some (.string s)
  comparator : fields.lookup "comparator" = some (.string c.word)
  reference : fields.lookup "reference" = some reference

inductive Derails : Json → Prop
  /-- It is no object, and that it lacks fields is not noticed. -/
  | unnoticed {v : Json} (h : v.Unnoticed ["resource", "comparator", "reference"]) : Derails v
  /-- It names an argument by a number with too many digits. -/
  | longIndex {fields : Json.Fields} {s : String} {c : Comparator} {reference : Json}
      {digits : List Char} (head : HasHead fields s c reference)
      (index : Resource.argumentDigits? s = some digits) (long : maxDigits < digits.length) :
      Derails (.object fields)
  /-- A number beyond all doubles is to be compared with. -/
  | huge {fields : Json.Fields} {s : String} {c : Comparator} {reference : Json}
      {resource : Resource} (head : HasHead fields s c reference)
      (named : Resource.ofText? s = .ok (some resource)) (huge : reference.IsHuge)
      (number : c ≠ .includedIn ∧ c ≠ .notIncludedIn) : Derails (.object fields)

theorem HasHead.ofJson_eq {fields : Json.Fields} {s : String} {c : Comparator} {reference : Json}
    (h : HasHead fields s c reference) :
    ofJson (.object fields) = Resource.ofText? s >>= fun found =>
      found.elim (DocumentError.unknownResource (.string s)).throw fun resource =>
        Test.of c reference >>= fun test => pure { resource, test } := by
  have htype : (Json.string typeWord).wordOf "condition type" [typeWord]
      (fun s => if s = typeWord then some () else none) = .ok () := Json.wordOf_string _ _ (by simp)
  have hword := Json.wordOf_string "comparator" (Comparator.all.map (·.word))
    (Comparator.ofWord?_word c)
  simp only [ofJson, Json.requireFields, Json.mentions, Json.fieldOr, Json.required, h.type,
    h.resource, h.comparator, h.reference, Option.isSome_some, if_true, ok_bind, htype, hword]
  refine bind_congr fun found => ?_
  cases found <;> rfl

theorem unnoticed_or_head (h : Fails Undeclared (ofJson v)) :
    v.Unnoticed ["resource", "comparator", "reference"] ∨
      ∃ fields s c reference, v = .object fields ∧ HasHead fields s c reference := by
  rcases Json.unnoticed_or_object h with hunnoticed | ⟨fields, rfl, hnames, hfails⟩
  · exact Or.inl hunnoticed
  obtain ⟨resource, hresource⟩ := hnames "resource" (by simp)
  obtain ⟨comparator, hcomparator⟩ := hnames "comparator" (by simp)
  obtain ⟨reference, hreference⟩ := hnames "reference" (by simp)
  simp only [Json.fieldOr, Json.required, hresource, hcomparator, hreference, ok_bind] at hfails
  obtain ⟨t, _, ht, htype, hfails⟩ := Json.fails_wordOf_bind_iff.mp hfails
  obtain ⟨word, c, rfl, hc, hfails⟩ := Json.fails_wordOf_bind_iff.mp hfails
  obtain rfl : t = typeWord := by simpa using htype
  rw [← Comparator.word_of_ofWord? hc] at hcomparator
  cases resource with
  | string s => exact Or.inr ⟨fields, s, c, reference, rfl, ht, hresource, hcomparator, hreference⟩
  | _ => exact absurd hfails DocumentError.not_fails_throw

theorem fails_ofJson_iff : Fails Undeclared (ofJson v) ↔ Derails v := by
  constructor
  · intro h
    rcases unnoticed_or_head h with hunnoticed | ⟨fields, s, c, reference, rfl, hhead⟩
    · exact .unnoticed hunnoticed
    rw [hhead.ofJson_eq, fails_bind, Resource.fails_ofText?_iff] at h
    rcases h with ⟨digits, hdigits, hlong⟩ | ⟨found, hfound, hfails⟩
    · exact .longIndex hhead hdigits hlong
    cases found with
    | none => exact absurd hfails DocumentError.not_fails_throw
    | some resource =>
      have htest := (fails_bind.mp hfails).resolve_right (by simp)
      obtain ⟨hhuge, hnumber⟩ := Test.fails_of_iff.mp htest
      exact .huge hhead hfound hhuge hnumber
  · rintro (hunnoticed | ⟨hhead, hdigits, hlong⟩ | ⟨hhead, hnamed, hhuge, hnumber⟩)
    · refine hunnoticed.fails ?_
      rw [fails_bind]
      exact Or.inl (Json.fails_fieldOr hunnoticed.1)
    · rw [hhead.ofJson_eq, fails_bind, Resource.fails_ofText?_iff]
      exact Or.inl ⟨_, hdigits, hlong⟩
    · rw [hhead.ofJson_eq, fails_bind]
      refine Or.inr ⟨_, hnamed, ?_⟩
      exact fails_bind.mpr (Or.inl (Test.fails_of_iff.mpr ⟨hhuge, hnumber⟩))

end Condition

namespace Permission

inductive Derails : Json → Prop
  /-- It is no object, and that it lacks fields is not noticed. -/
  | unnoticed {v : Json} (h : v.Unnoticed ["effect", "chainId", "type"]) : Derails v
  /-- Its effect and its action are known, but its conditions cannot be read. -/
  | conditions {fields : Json.Fields} {e : Effect} {chain : Json} {a : Action}
      (effect : fields.lookup "effect" = some (.string e.word))
      (chain : fields.lookup "chainId" = some chain)
      (action : fields.lookup "type" = some (.string a.word))
      (h : ((fields.lookup "conditions").getD .null).PartDerails Condition.ofJson
        Condition.Derails) : Derails (.object fields)

theorem fails_ofJson_iff : Fails Undeclared (ofJson v) ↔ Derails v := by
  constructor
  · intro h
    rcases Json.unnoticed_or_object h with hunnoticed | ⟨fields, rfl, hnames, hfails⟩
    · exact .unnoticed hunnoticed
    obtain ⟨effect, heffect⟩ := hnames "effect" (by simp)
    obtain ⟨chain, hchain⟩ := hnames "chainId" (by simp)
    obtain ⟨action, haction⟩ := hnames "type" (by simp)
    simp only [Json.required, Json.field, heffect, hchain, haction, ok_bind] at hfails
    obtain ⟨_, e, rfl, he, hfails⟩ := Json.fails_wordOf_bind_iff.mp hfails
    obtain ⟨_, a, rfl, ha, hfails⟩ := Json.fails_wordOf_bind_iff.mp hfails
    rw [← Effect.word_of_ofWord? he] at heffect
    rw [← Action.word_of_ofWord? ha] at haction
    rw [Json.fails_partsIfAny_bind_iff fun _ => Condition.fails_ofJson_iff] at hfails
    rcases hfails with hpart | ⟨_, _, _, _, hfails⟩
    · exact .conditions heffect hchain haction hpart
    · cases chain with
      | string s =>
        dsimp only at hfails
        split at hfails <;> simp at hfails
      | _ => exact absurd hfails DocumentError.not_fails_throw
  · rintro (hunnoticed | @⟨fields, e, chain, a, heffect, hchain, haction, hpart⟩)
    · refine hunnoticed.fails ?_
      rw [fails_bind]
      exact Or.inl (Json.fails_required hunnoticed.1)
    · have heffect' := Json.wordOf_string "effect" (Effect.all.map (·.word)) (Effect.ofWord?_word e)
      have haction' := Json.wordOf_string "permission type" (Action.all.map (·.word))
        (Action.ofWord?_word a)
      simp only [ofJson, Json.requireFields, Json.mentions, Json.required, Json.field, heffect,
        hchain, haction, Option.isSome_some, if_true, ok_bind, heffect', haction']
      rw [Json.fails_partsIfAny_bind_iff fun _ => Condition.fails_ofJson_iff]
      exact Or.inl hpart

end Permission

namespace Scope

inductive Derails : Json → Prop
  /-- It is no object, and that it lacks a name is not noticed. -/
  | unnoticed {v : Json} (h : v.Unnoticed ["name"]) : Derails v
  /-- It is known whether it is required, but its permissions cannot be read. -/
  | permissions {fields : Json.Fields} {name : Json} {b : Bool}
      (name : fields.lookup "name" = some name)
      (required : (fields.lookup "required").getD (.bool false) = .bool b)
      (h : ((fields.lookup "permissions").getD .null).PartDerails Permission.ofJson
        Permission.Derails) : Derails (.object fields)

theorem fails_ofJson_iff : Fails Undeclared (ofJson v) ↔ Derails v := by
  constructor
  · intro h
    rcases Json.unnoticed_or_object h with hunnoticed | ⟨fields, rfl, hnames, hfails⟩
    · exact .unnoticed hunnoticed
    obtain ⟨name, hname⟩ := hnames "name" (by simp)
    simp only [Json.fieldOr, Json.required, Json.field, hname, ok_bind] at hfails
    cases hrequired : (fields.lookup "required").getD (.bool false) with
    | bool b =>
      rw [hrequired] at hfails
      dsimp only at hfails
      rw [Json.fails_partsIfAny_bind_iff fun _ => Permission.fails_ofJson_iff] at hfails
      rcases hfails with hpart | ⟨_, _, _, _, hfails⟩
      · exact .permissions hname hrequired hpart
      · split at hfails <;> simp at hfails
    | _ =>
      rw [hrequired] at hfails
      exact absurd hfails DocumentError.not_fails_throw
  · rintro (hunnoticed | ⟨hname, hrequired, hpart⟩)
    · refine hunnoticed.fails ?_
      rw [fails_bind]
      exact Or.inl (Json.fails_fieldOr hunnoticed.1)
    · simp only [ofJson, Json.requireFields, Json.mentions, Json.fieldOr, Json.required, Json.field,
        hname, hrequired, Option.isSome_some, if_true, ok_bind]
      rw [Json.fails_partsIfAny_bind_iff fun _ => Permission.fails_ofJson_iff]
      exact Or.inl hpart

end Scope

namespace Document

theorem fails_listed_iff {shared : List Json} : Fails Undeclared (do
      let sorted ← Json.sorted (← Json.members shared)
      match Json.texts? sorted with
      | some names => (DocumentError.duplicateScopes names).throw
      | none => misuse .wrongKind : Checked Unit) ↔
    ∃ name ∈ shared, ¬ ∃ s, name = .string s := by
  by_cases htexts : ∀ name ∈ shared, ∃ s, name = .string s
  · refine iff_of_false ?_ (by push Not; exact htexts)
    have hscalars : shared.all Json.isScalar = true := by
      refine List.all_eq_true.mpr fun name hname => ?_
      obtain ⟨s, rfl⟩ := htexts name hname
      rfl
    have hdistinct : ∀ name ∈ Json.distinct shared, ∃ s, name = .string s :=
      fun name hname => htexts name (Json.mem_of_mem_distinct hname)
    obtain ⟨ms, hms⟩ := Json.sorted_of_texts hdistinct
    have hlisted : ∀ name ∈ ms, ∃ s, name = .string s :=
      fun name hname => hdistinct name ((Json.perm_of_sorted hms).mem_iff.mp hname)
    rw [Json.members, if_pos hscalars, ok_bind, hms, ok_bind, ← Json.map_string_texts hlisted,
      Json.texts?_map_string]
    exact DocumentError.not_fails_throw
  · push Not at htexts
    obtain ⟨name, hname, hno⟩ := htexts
    refine iff_of_true ?_ ⟨name, hname, not_exists.mpr hno⟩
    unfold Json.members
    split
    · rename_i hscalars
      rw [ok_bind]
      cases hsorted : Json.sorted (Json.distinct shared) with
      | error e =>
        obtain rfl := Json.sorted_eq_error hsorted
        exact ⟨_, rfl, undeclared_misuse _⟩
      | ok ms =>
        rw [ok_bind]
        split
        · -- The name would be among the texts that are listed.
          rename_i ss hss
          have hscalar := List.all_eq_true.mp hscalars _ hname
          obtain ⟨v, hv, hsame⟩ := Json.exists_same_of_mem hname hscalar
          have hmem := (Json.perm_of_sorted hsorted).mem_iff.mpr hv
          rw [Json.texts?_eq_some.mp hss] at hmem
          obtain ⟨s, -, rfl⟩ := List.mem_map.mp hmem
          exact absurd (Json.same_string.mp hsame) (hno s)
        · exact ⟨_, rfl, undeclared_misuse _⟩
    · exact ⟨_, rfl, undeclared_misuse _⟩

theorem fails_checkNames_iff {names : List Json} : Fails Undeclared (checkNames names) ↔
    ∃ name ∈ names, 1 < names.countP name.same ∧ ¬ ∃ s, name = .string s := by
  have hshared (name : Json) : name ∈ names.filter (fun name => 1 < names.countP name.same) ↔
      name ∈ names ∧ 1 < names.countP name.same := by simp
  simp only [checkNames, ← and_assoc, ← hshared]
  generalize names.filter (fun name => 1 < names.countP name.same) = shared
  cases shared with
  | nil => simp
  | cons name shared => exact fails_listed_iff

theorem fails_timestamp_iff {label : String} :
    Fails Undeclared (timestamp label v) ↔ v.IsHuge := by
  unfold timestamp
  split
  · simp [Json.IsHuge]
  · refine Json.fails_finite?_bind_iff fun found => ?_
    cases found <;> simp

def HasScopes (fields : Json.Fields) (scopes : List Scope) : Prop :=
  (∃ partner, fields.lookup "partnerId" = some partner) ∧ ∃ parts,
    ((fields.lookup "scopes").getD .null).partsIfAny = .ok parts ∧
      parts.mapM Scope.ofJson = .ok scopes

def Unshared (names : List Json) : Prop := ∀ name ∈ names, names.countP name.same ≤ 1

inductive Derails : Json → Prop
  /-- It has a partner, but its scopes cannot be read. -/
  | scopes {fields : Json.Fields} {partner : Json}
      (hpartner : fields.lookup "partnerId" = some partner)
      (h : ((fields.lookup "scopes").getD .null).PartDerails Scope.ofJson Scope.Derails) :
      Derails (.object fields)
  /-- Scopes share a name that is no text. -/
  | names {fields : Json.Fields} {scopes : List Scope} {name : Json}
      (hscopes : HasScopes fields scopes) (hname : name ∈ scopes.map (·.name))
      (hshared : 1 < (scopes.map (·.name)).countP name.same) (hno : ¬ ∃ s, name = .string s) :
      Derails (.object fields)
  /-- Its window begins at a number beyond all doubles. -/
  | validFrom {fields : Json.Fields} {scopes : List Scope} (hscopes : HasScopes fields scopes)
      (hnames : Unshared (scopes.map (·.name)))
      (huge : ((fields.lookup "validFrom").getD .null).IsHuge) : Derails (.object fields)
  /-- Its window ends at a number beyond all doubles. -/
  | validTo {fields : Json.Fields} {scopes : List Scope} {start : Option Number}
      (hscopes : HasScopes fields scopes) (hnames : Unshared (scopes.map (·.name)))
      (hstart : timestamp "valid_from" ((fields.lookup "validFrom").getD .null) = .ok start)
      (huge : ((fields.lookup "validTo").getD .null).IsHuge) : Derails (.object fields)

theorem checkNames_eq_ok {names : List Json} {u : Unit} :
    checkNames names = .ok u ↔ Unshared names :=
  ⟨unshared_of_checkNames, checkNames_of_unshared⟩

/-- After the scopes of a document, the names and then the two ends of its window are checked. -/
theorem fails_object_iff {fields : Json.Fields} {partner : Json}
    (hpartner : fields.lookup "partnerId" = some partner) :
    Fails Undeclared (ofJson (.object fields)) ↔
      ((fields.lookup "scopes").getD .null).PartDerails Scope.ofJson Scope.Derails ∨
      ∃ scopes, HasScopes fields scopes ∧ (Fails Undeclared (checkNames (scopes.map (·.name))) ∨
        Unshared (scopes.map (·.name)) ∧ (((fields.lookup "validFrom").getD .null).IsHuge ∨
          ∃ start, timestamp "valid_from" ((fields.lookup "validFrom").getD .null) = .ok start ∧
            ((fields.lookup "validTo").getD .null).IsHuge)) := by
  have hend (start stop : Option Number) (d : Document) : ¬ Fails Undeclared
      (if inverted start stop then DocumentError.invertedWindow.throw else pure d) := by
    split <;> simp
  simp only [ofJson, hpartner, Json.field, ok_bind]
  rw [Json.fails_partsIfAny_bind_iff fun _ => Scope.fails_ofJson_iff]
  simp only [HasScopes, hpartner, fails_bind, fails_timestamp_iff, hend, checkNames_eq_ok,
    and_false, exists_false, or_false, exists_const]
  refine or_congr_right ⟨?_, ?_⟩
  · rintro ⟨parts, scopes, hparts, hread, h⟩
    exact ⟨scopes, ⟨⟨partner, rfl⟩, parts, hparts, hread⟩, h⟩
  · rintro ⟨scopes, ⟨_, parts, hparts, hread⟩, h⟩
    exact ⟨parts, scopes, hparts, hread, h⟩

theorem fails_ofJson_iff : Fails Undeclared (ofJson v) ↔ Derails v := by
  constructor
  · intro h
    cases v with
    | object fields =>
      cases hpartner : fields.lookup "partnerId" with
      | none =>
        rw [ofJson, hpartner] at h
        exact absurd h DocumentError.not_fails_throw
      | some partner =>
        rcases (fails_object_iff hpartner).mp h with
          hpart | ⟨scopes, hscopes, hfails | ⟨hnames, huge | ⟨start, hstart, huge⟩⟩⟩
        · exact .scopes hpartner hpart
        · obtain ⟨name, hname, hshared, hno⟩ := fails_checkNames_iff.mp hfails
          exact .names hscopes hname hshared hno
        · exact .validFrom hscopes hnames huge
        · exact .validTo hscopes hnames hstart huge
    | _ => exact absurd h DocumentError.not_fails_throw
  · intro h
    cases h with
    | scopes hpartner hpart => exact (fails_object_iff hpartner).mpr (Or.inl hpart)
    | names hscopes hname hshared hno =>
      obtain ⟨partner, hpartner⟩ := hscopes.1
      have hfails := fails_checkNames_iff.mpr ⟨_, hname, hshared, hno⟩
      exact (fails_object_iff hpartner).mpr (Or.inr ⟨_, hscopes, Or.inl hfails⟩)
    | validFrom hscopes hnames huge =>
      obtain ⟨partner, hpartner⟩ := hscopes.1
      exact (fails_object_iff hpartner).mpr (Or.inr ⟨_, hscopes, Or.inr ⟨hnames, Or.inl huge⟩⟩)
    | validTo hscopes hnames hstart huge =>
      obtain ⟨partner, hpartner⟩ := hscopes.1
      exact (fails_object_iff hpartner).mpr
        (Or.inr ⟨_, hscopes, Or.inr ⟨hnames, Or.inr ⟨_, hstart, huge⟩⟩⟩)

def TextDerails (reader : Json.Reader) (text : String) : Prop :=
  Json.read text reader = .error .longNumber ∨ Json.read text reader = .error .tooDeep ∨
    ∃ v, Json.read text reader = .ok v ∧ Derails v

theorem fails_parse_iff {reader : Json.Reader} {text : String} :
    Fails Undeclared (parse text reader) ↔ TextDerails reader text := by
  unfold parse TextDerails
  cases hread : Json.read text reader with
  | ok v => simp [fails_ofJson_iff]
  | error e => cases e <;> simp [Fault.ofReadError, undeclared_misuse]

/-- A text is read as a document, or refused with a cause, unless it derails the reading. That holds
whatever stands for halves of pairs that stand alone, so they may all be different and occur nowhere
else, and however deep values may be nested. -/
theorem parse_declared_iff (reader : Json.Reader) (text : String) :
    ((∃ d, parse text reader = .ok d) ∨ ∃ e, parse text reader = .error (.document e)) ↔
      ¬ TextDerails reader text := by
  rw [← fails_parse_iff]
  cases parse text reader with
  | ok d => simp
  | error e => simp [Undeclared]

/-- Names that are no texts are told apart by the halves in them. -/
example : (parse ("\x7b\"partnerId\":\"p\",\"scopes\":[" ++
    "\x7b\"name\":[\"\\ud800\"]\x7d,\x7b\"name\":[\"\\ud801\"]\x7d]\x7d")).isOk = true := by
  decide +kernel

/-- A number for the scopes, a text for a scope, and two scopes with the same number as a name. -/
theorem parse_undeclared :
    parse "\x7b\"partnerId\":\"p\",\"scopes\":5\x7d" = .error (.misuse .wrongKind) ∧
    parse "\x7b\"partnerId\":\"p\",\"scopes\":[\"name\"]\x7d" = .error (.misuse .noMember) ∧
    parse "\x7b\"partnerId\":\"p\",\"scopes\":[\x7b\"name\":1\x7d,\x7b\"name\":1\x7d]\x7d" =
      .error (.misuse .wrongKind) :=
  ⟨Checked.misuses_iff.mp (by decide +kernel), Checked.misuses_iff.mp (by decide +kernel),
    Checked.misuses_iff.mp (by decide +kernel)⟩

end Document

end Allowance
