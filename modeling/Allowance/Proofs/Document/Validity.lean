import Allowance.Proofs.Document.Condition
import Allowance.Proofs.Number.Value

/-! # Which documents are valid

A value of the shape of a document is read as one exactly when it is valid: the required fields are
there, all words are known, references go with their comparators, no scope repeats a permission and
no two scopes share a name, and the window does not end before it begins. Otherwise it is refused
with a cause, unless a resource names an argument by a number that has too many digits. The document
that is read is written as the value that was given, with the defaults filled in.
-/

namespace Allowance

open Checked Json Text

open Document (Undeclared)

variable {kind : Fault → Prop} {u v : Json}

namespace Permission

variable {p q : Permission} {fields : Fields}

theorem listing_mem_wire : .listing "conditions" Condition.wire ∈ wire.fields := by simp [wire]

/-- What a permission has to satisfy to be accepted. -/
structure Valid (v : Json) : Prop where
  effect : ∃ e : Effect, v.get? "effect" = some (.string e.word)
  chain : ∃ id, v.get? "chainId" = some (.string id) ∧ id ≠ ""
  action : ∃ a : Action, v.get? "type" = some (.string a.word)
  conditions : ∀ c ∈ v.items "conditions", Condition.Valid c

theorem Valid.present (h : Valid (.object fields)) :
    ∀ name ∈ ["effect", "chainId", "type"], ∃ u, fields.lookup name = some u := by
  obtain ⟨⟨e, he⟩, ⟨id, hid, -⟩, ⟨a, ha⟩, -⟩ := h
  simp only [List.forall_mem_cons]
  exact ⟨⟨_, he⟩, ⟨_, hid⟩, ⟨_, ha⟩, by simp⟩

theorem decides_chain {chain : Json} (hdocument : ∀ e, kind (.document e))
    (f : String → Permission) :
    Decides kind (match chain with
      | .string s =>
        if s.isEmpty then (DocumentError.emptyChain chain).throw
        else (pure (f s) : Checked Permission)
      | _ => (DocumentError.emptyChain chain).throw) (∃ id, chain = .string id ∧ id ≠ "") := by
  cases chain with
  | string s =>
    dsimp only
    split <;> rename_i hs
    · exact (Decides.error (hdocument _)).congr (by simpa using hs)
    · exact (Decides.ok _).congr (by simpa using hs)
  | _ => exact (Decides.error (hdocument _)).congr (by simp)

theorem decides_ofJson (hdocument : ∀ e, kind (.document e))
    (hlong : ∀ c ∈ v.items "conditions", Condition.LongIndexed c → kind (.misuse .badValue))
    (h : v.Fits wire) : Decides kind (ofJson v) (Valid v) := by
  have hparts := h.partsIfAny listing_mem_wire
  have hfit := (h.listed listing_mem_wire).2
  obtain ⟨fields, rfl, -⟩ := h
  refine decides_of_fields hdocument Valid.present fun hpresent => ?_
  obtain ⟨effect, heffect⟩ := hpresent "effect" (by simp)
  obtain ⟨chain, hchain⟩ := hpresent "chainId" (by simp)
  obtain ⟨action, haction⟩ := hpresent "type" (by simp)
  rw [get?_object] at hparts
  simp only [required, field, heffect, hchain, haction, ok_bind, hparts]
  refine Decides.congr ((decides_wordOf hdocument Effect.ofWord?_iff).bind fun e _ =>
    (decides_wordOf hdocument Action.ofWord?_iff).bind fun a _ =>
    (Decides.mapM fun c hc => Condition.decides_ofJson hdocument (hlong c hc) (hfit c hc)).bind
    fun conditions _ => decides_chain hdocument _) ?_
  constructor
  · rintro ⟨⟨e, rfl⟩, ⟨a, rfl⟩, hconditions, id, rfl, hid⟩
    exact ⟨⟨e, heffect⟩, ⟨id, hchain, hid⟩, ⟨a, haction⟩, hconditions⟩
  · rintro ⟨⟨e, he⟩, ⟨id, hid, hne⟩, ⟨a, ha⟩, hconditions⟩
    obtain rfl := Option.some.inj (heffect.symm.trans he)
    obtain rfl := Option.some.inj (hchain.symm.trans hid)
    obtain rfl := Option.some.inj (haction.symm.trans ha)
    exact ⟨⟨e, rfl⟩, ⟨a, rfl⟩, hconditions, id, rfl, hne⟩

/-- The permission holds what a value says. -/
structure ReadFrom (p : Permission) (v : Json) : Prop where
  effect : v.get? "effect" = some (.string p.effect.word)
  chain : v.get? "chainId" = some (.string p.chain)
  action : v.get? "type" = some (.string p.action.word)
  conditions : ∃ parts, ((v.get? "conditions").getD .null).partsIfAny = .ok parts ∧
    parts.mapM Condition.ofJson = .ok p.conditions

theorem readFrom_of_ofJson (h : ofJson v = .ok p) : p.ReadFrom v := by
  simp only [ofJson, bind_eq_ok, required_eq_ok, wordOf_eq_ok Effect.ofWord?_iff,
    wordOf_eq_ok Action.ofWord?_iff] at h
  obtain ⟨_, -, _, heffect, e, rfl, chain, hchain, _, haction, a, rfl, _, hfield, parts, hparts,
    conditions, hconditions, h⟩ := h
  obtain ⟨fields, rfl, rfl⟩ := field_eq_ok.mp hfield
  cases chain with
  | string id =>
    dsimp only at h
    split at h
    · exact absurd h DocumentError.throw_ne_ok
    · obtain rfl := pure_eq_ok.mp h
      exact ⟨heffect, hchain, haction, parts, hparts, hconditions⟩
  | _ => exact absurd h DocumentError.throw_ne_ok

theorem toJson_eq_completed (h : v.Fits wire) (hp : ofJson v = .ok p) :
    p.toJson = v.completed wire := by
  obtain ⟨heffect, hchain, haction, parts, hparts, hconditions⟩ := readFrom_of_ofJson hp
  have hwritten := h.written_of_read listing_mem_wire
    (fun c hc _ => Condition.toJson_eq_completed hc) hparts hconditions
  simp [toJson, completed, wire, hwritten, heffect, hchain, haction]

def Alike (u v : Json) : Prop :=
  ∀ name ∈ ["effect", "chainId", "type"], u.get? name = v.get? name

theorem overlaps_eq_false_iff (hp : p.ReadFrom u) (hq : q.ReadFrom v) :
    q.overlaps p = false ↔ ¬ Alike u v := by
  have heffects : p.effect.word = q.effect.word ↔ q.effect = p.effect := by
    cases p.effect <;> cases q.effect <;> decide
  have hactions : p.action.word = q.action.word ↔ q.action = p.action := by
    cases p.action <;> cases q.action <;> decide
  simp [overlaps, covers, Alike, hp.effect, hp.chain, hp.action, hq.effect, hq.chain, hq.action,
    heffects, hactions]
  tauto

theorem decides_repeated {ps : List Permission} (hdocument : ∀ e, kind (.document e))
    (cause : Permission → DocumentError) (s : Scope) :
    Decides kind (match repeated? [] ps with
      | some p => (cause p).throw
      | none => (pure s : Checked Scope)) (ps.Pairwise fun p q => q.overlaps p = false) := by
  split
  · rename_i hrepeated
    refine (Decides.error (hdocument _)).congr (iff_of_false id fun hno => ?_)
    have hnone : repeated? [] ps = none := repeated?_eq_none (by simp) hno
    cases hnone.symm.trans hrepeated
  · rename_i hrepeated
    exact (Decides.ok _).congr (iff_of_true trivial (pairwise_of_repeated? hrepeated).2)

end Permission

namespace Scope

variable {s : Scope} {fields : Fields}

theorem listing_mem_wire : .listing "permissions" Permission.wire ∈ wire.fields := by simp [wire]

/-- What a scope has to satisfy to be accepted. -/
structure Valid (v : Json) : Prop where
  name : ∃ u, v.get? "name" = some u
  permissions : ∀ p ∈ v.items "permissions", Permission.Valid p
  different : (v.items "permissions").Pairwise fun p q => ¬ Permission.Alike p q

theorem decides_ofJson (hdocument : ∀ e, kind (.document e))
    (hlong : ∀ p ∈ v.items "permissions", ∀ c ∈ p.items "conditions",
      Condition.LongIndexed c → kind (.misuse .badValue))
    (h : v.Fits wire) : Decides kind (ofJson v) (Valid v) := by
  have hparts := h.partsIfAny listing_mem_wire
  have hfit := (h.listed listing_mem_wire).2
  have hrequired : ∃ b, (v.get? "required").getD (.bool false) = .bool b := by
    cases hfound : v.get? "required" with
    | none => exact ⟨false, rfl⟩
    | some u => exact h.admits (w := wire.fields[2]) (List.getElem_mem _) hfound
  obtain ⟨fields, rfl, -⟩ := h
  refine decides_of_fields hdocument (fun hv => by simpa using hv.name) fun hpresent => ?_
  obtain ⟨name, hname⟩ := hpresent "name" (by simp)
  obtain ⟨b, hb⟩ := hrequired
  rw [get?_object] at hparts hb
  simp only [fieldOr, Json.required, field, hname, ok_bind, hparts, hb]
  have hvalid : ((∀ p ∈ (object fields).items "permissions", Permission.Valid p) ∧
      ((object fields).items "permissions").Pairwise fun p q => ¬ Permission.Alike p q) ↔
      Valid (object fields) :=
    ⟨fun hv => ⟨⟨name, hname⟩, hv.1, hv.2⟩, fun hv => ⟨hv.permissions, hv.different⟩⟩
  refine Decides.congr ((Decides.mapM fun p hp =>
    Permission.decides_ofJson hdocument (hlong p hp) (hfit p hp)).bind
    fun permissions hread => ?_) hvalid
  refine (Permission.decides_repeated hdocument _ _).congr (pairwise_of_mapM hread ?_).symm
  intro u p v q hp hq
  exact (Permission.overlaps_eq_false_iff (Permission.readFrom_of_ofJson hp)
    (Permission.readFrom_of_ofJson hq)).symm

/-- The scope holds what a value says. -/
structure ReadFrom (s : Scope) (v : Json) : Prop where
  name : v.get? "name" = some s.name
  description : (v.get? "description").getD (.string "") = s.description
  required : (v.get? "required").getD (.bool false) = .bool s.required
  permissions : ∃ parts, ((v.get? "permissions").getD .null).partsIfAny = .ok parts ∧
    parts.mapM Permission.ofJson = .ok s.permissions

theorem readFrom_of_ofJson (h : ofJson v = .ok s) : s.ReadFrom v := by
  simp only [ofJson, bind_eq_ok, required_eq_ok] at h
  obtain ⟨_, -, required, hfound, name, hname, h⟩ := h
  obtain ⟨fields, rfl, hrequired⟩ := fieldOr_eq_ok.mp hfound
  cases required with
  | bool b =>
    simp only [bind_eq_ok, fieldOr, field, Except.ok.injEq] at h
    obtain ⟨_, rfl, _, rfl, parts, hparts, permissions, hpermissions, h⟩ := h
    split at h
    · exact absurd h DocumentError.throw_ne_ok
    · obtain rfl := pure_eq_ok.mp h
      exact ⟨hname, rfl, hrequired, parts, hparts, hpermissions⟩
  | _ => exact absurd h DocumentError.throw_ne_ok

theorem toJson_eq_completed (h : v.Fits wire) (hs : ofJson v = .ok s) :
    s.toJson = v.completed wire := by
  obtain ⟨hname, hdescription, hrequired, parts, hparts, hpermissions⟩ := readFrom_of_ofJson hs
  have hwritten := h.written_of_read listing_mem_wire
    (fun p hp _ => Permission.toJson_eq_completed hp) hparts hpermissions
  simp [toJson, completed, wire, hwritten, hname, hdescription, hrequired]

end Scope

namespace Document

variable {d : Document} {fields : Fields}

theorem listing_mem_wire : .listing "scopes" Scope.wire ∈ wire.fields := by simp [wire]

/-- What a document has to satisfy to be accepted. -/
structure Valid (v : Json) : Prop where
  partner : ∃ u, v.get? "partnerId" = some u
  scopes : ∀ s ∈ v.items "scopes", Scope.Valid s
  names : (v.items "scopes").Pairwise fun s t => s.get? "name" ≠ t.get? "name"
  window : ∀ start stop, v.get? "validFrom" = some (.number start) →
    v.get? "validTo" = some (.number stop) → ¬ stop.Below start

def LongIndexed (v : Json) : Prop :=
  ∃ s ∈ v.items "scopes", ∃ p ∈ s.items "permissions", ∃ c ∈ p.items "conditions",
    Condition.LongIndexed c

theorem unshared_iff_nodup {names : List Json} (h : ∀ name ∈ names, name.IsText) :
    Unshared names ↔ names.Nodup := by
  rw [← map_string_texts h]
  generalize names.filterMap text? = ss
  have hinjective : Function.Injective Json.string := fun s t hst => by simpa using hst
  have hcount (s : String) : (ss.map Json.string).countP (Json.string s).same = ss.count s := by
    rw [List.countP_map, List.count]
    refine List.countP_congr fun t _ => ?_
    simpa [Json.same] using eq_comm
  rw [List.nodup_map_iff hinjective, List.nodup_iff_count_le_one]
  simp only [Unshared, List.forall_mem_map, hcount]
  refine ⟨fun hall s => ?_, fun hall s _ => hall s⟩
  by_cases hs : s ∈ ss
  · exact hall s hs
  · simp [List.count_eq_zero.mpr hs]

theorem decides_checkNames {names : List Json} (hdocument : ∀ e, kind (.document e))
    (h : ∀ name ∈ names, name.IsText) : Decides kind (checkNames names) names.Nodup := by
  have hdeclared : ¬ Fails Undeclared (checkNames names) := by
    rw [fails_checkNames_iff]
    rintro ⟨name, hname, -, hno⟩
    exact hno (h name hname)
  refine (DocumentError.decides hdocument hdeclared).congr ?_
  simp only [checkNames_eq_ok, exists_const, unshared_iff_nodup h]

theorem decides_names {us : List Json} {scopes : List Scope}
    (hdocument : ∀ e, kind (.document e)) (hfit : ∀ u ∈ us, u.Fits Scope.wire)
    (hread : us.mapM Scope.ofJson = .ok scopes) :
    Decides kind (checkNames (scopes.map (·.name)))
      (us.Pairwise fun u v => u.get? "name" ≠ v.get? "name") := by
  have htexts : ∀ name ∈ scopes.map (·.name), name.IsText := by
    rw [List.forall_mem_map]
    intro s hs
    obtain ⟨u, hu, hread⟩ := (mem_of_mapM hread).mp hs
    exact (hfit u hu).admits (w := Scope.wire.fields[0]) (List.getElem_mem _)
      (Scope.readFrom_of_ofJson hread).name
  refine (decides_checkNames hdocument htexts).congr (List.pairwise_map.trans ?_)
  refine (pairwise_of_mapM hread fun u s v t hs ht => ?_).symm
  simp [(Scope.readFrom_of_ofJson hs).name, (Scope.readFrom_of_ofJson ht).name]

def endOf (v : Json) (name : String) : Option Number :=
  match v.get? name with
  | some (.number n) => some n
  | _ => none

theorem timestamp_eq {label name : String} (h : ∀ u, v.get? name = some u → u.IsFinite) :
    timestamp label ((v.get? name).getD .null) = .ok (endOf v name) := by
  cases hfound : v.get? name with
  | none => simp [endOf, hfound, timestamp, pure, Except.pure]
  | some u =>
    obtain ⟨n, rfl, hn⟩ := h u hfound
    have hend : endOf v name = some n := by simp [endOf, hfound]
    rw [hend]
    exact timestamp_of_finite label (n := some n) (by simpa using hn)

theorem endOf_eq_some {name : String} {n : Number} :
    endOf v name = some n ↔ v.get? name = some (.number n) := by
  unfold endOf
  split <;> simp_all

theorem inverted_endOf_iff : inverted (endOf v "validFrom") (endOf v "validTo") = false ↔
    ∀ start stop, v.get? "validFrom" = some (.number start) →
      v.get? "validTo" = some (.number stop) → ¬ stop.Below start := by
  simp only [← endOf_eq_some, ← Number.lt_iff]
  unfold inverted
  split
  · rename_i start stop hstart hstop
    simp [hstart, hstop]
  · rename_i hopen
    exact iff_of_true rfl fun start stop hstart hstop => (hopen start stop hstart hstop).elim

theorem finite_validFrom (h : v.Fits wire) (u : Json) : v.get? "validFrom" = some u → u.IsFinite :=
  h.admits (w := wire.fields[1]) (List.getElem_mem _)

theorem finite_validTo (h : v.Fits wire) (u : Json) : v.get? "validTo" = some u → u.IsFinite :=
  h.admits (w := wire.fields[2]) (List.getElem_mem _)

theorem decides_window (hdocument : ∀ e, kind (.document e)) (h : v.Fits wire)
    (f : Option Number → Option Number → Document) :
    Decides kind (do
      let validFrom ← timestamp "valid_from" ((v.get? "validFrom").getD .null)
      let validTo ← timestamp "valid_to" ((v.get? "validTo").getD .null)
      if inverted validFrom validTo then DocumentError.invertedWindow.throw
      else return f validFrom validTo)
      (∀ start stop, v.get? "validFrom" = some (.number start) →
        v.get? "validTo" = some (.number stop) → ¬ stop.Below start) := by
  simp only [timestamp_eq (finite_validFrom h), timestamp_eq (finite_validTo h), ok_bind]
  rw [← inverted_endOf_iff]
  split <;> rename_i hinverted
  · exact (Decides.error (hdocument _)).congr (by simp [hinverted])
  · exact (Decides.ok _).congr (by simpa using hinverted)

theorem decides_ofJson (hdocument : ∀ e, kind (.document e))
    (hlong : LongIndexed v → kind (.misuse .badValue)) (h : v.Fits wire) :
    Decides kind (ofJson v) (Valid v) := by
  have hparts := h.partsIfAny listing_mem_wire
  have hfit := (h.listed listing_mem_wire).2
  have hwindow := decides_window hdocument h
  have hscope (s : Json) (hs : s ∈ v.items "scopes") :
      Decides kind (Scope.ofJson s) (Scope.Valid s) :=
    Scope.decides_ofJson hdocument (fun p hp c hc hc' => hlong ⟨s, hs, p, hp, c, hc, hc'⟩)
      (hfit s hs)
  obtain ⟨fields, rfl, -⟩ := h
  simp only [get?_object] at hparts hwindow
  cases hpartner : fields.lookup "partnerId" with
  | none =>
    rw [ofJson, hpartner]
    refine (Decides.error (hdocument _)).congr (iff_of_false id ?_)
    rintro ⟨⟨u, hu⟩, -⟩
    cases hpartner.symm.trans hu
  | some partner =>
    simp only [ofJson, hpartner, field, ok_bind, hparts]
    refine ((Decides.mapM hscope).bind fun scopes hread =>
      (decides_names hdocument hfit hread).bind fun _ _ => hwindow fun validFrom validTo =>
        { partner, validFrom, validTo, scopes }).congr ?_
    constructor
    · rintro ⟨hscopes, hnames, hwindow⟩
      exact ⟨⟨partner, hpartner⟩, hscopes, hnames, hwindow⟩
    · rintro ⟨-, hscopes, hnames, hwindow⟩
      exact ⟨hscopes, hnames, hwindow⟩

/-- The document holds what a value says. -/
structure ReadFrom (d : Document) (v : Json) : Prop where
  partner : v.get? "partnerId" = some d.partner
  validFrom : timestamp "valid_from" ((v.get? "validFrom").getD .null) = .ok d.validFrom
  validTo : timestamp "valid_to" ((v.get? "validTo").getD .null) = .ok d.validTo
  scopes : ∃ parts, ((v.get? "scopes").getD .null).partsIfAny = .ok parts ∧
    parts.mapM Scope.ofJson = .ok d.scopes

theorem readFrom_of_ofJson (h : ofJson v = .ok d) : d.ReadFrom v := by
  unfold ofJson at h
  split at h
  · split at h
    · exact absurd h DocumentError.throw_ne_ok
    · rename_i partner hpartner
      simp only [field, bind_eq_ok, ok_bind] at h
      obtain ⟨parts, hparts, scopes, hscopes, _, -, _, hfrom, _, hto, h⟩ := h
      split at h
      · exact absurd h DocumentError.throw_ne_ok
      · obtain rfl := pure_eq_ok.mp h
        exact ⟨hpartner, hfrom, hto, parts, hparts, hscopes⟩
  · exact absurd h DocumentError.throw_ne_ok

theorem numberField_of_timestamp {label name : String} {t : Option Number}
    (h : ∀ u, v.get? name = some u → u.IsFinite)
    (ht : timestamp label ((v.get? name).getD .null) = .ok t) :
    numberField name t = (v.get? name).toList.map (name, ·) := by
  obtain rfl := Except.ok.inj ((timestamp_eq h).symm.trans ht)
  cases hfound : v.get? name with
  | none => simp [endOf, hfound, numberField]
  | some u =>
    obtain ⟨n, rfl, -⟩ := h u hfound
    simp [endOf, hfound, numberField]

theorem toJson_eq_completed (h : v.Fits wire) (hd : ofJson v = .ok d) :
    d.toJson = v.completed wire := by
  obtain ⟨hpartner, hfrom, hto, parts, hparts, hscopes⟩ := readFrom_of_ofJson hd
  have hwritten := h.written_of_read listing_mem_wire
    (fun s hs _ => Scope.toJson_eq_completed hs) hparts hscopes
  have hstart := numberField_of_timestamp (finite_validFrom h) hfrom
  have hstop := numberField_of_timestamp (finite_validTo h) hto
  simp [toJson, completed, wire, hwritten, hpartner, hstart, hstop]

/-- The faults for which a value of the shape of a document may be refused. -/
def Refusal (v : Json) (f : Fault) : Prop :=
  (∃ e, f = .document e) ∨ LongIndexed v ∧ f = .misuse .badValue

theorem decides_refusal (h : v.Fits wire) : Decides (Refusal v) (ofJson v) (Valid v) :=
  decides_ofJson (fun e => Or.inl ⟨e, rfl⟩) (fun hlong => Or.inr ⟨hlong, rfl⟩) h

end Document

section Sparse

variable {resource : String} {digits : List Char}

def Condition.sparse (resource : String) : Json := .object [
  ("resource", .string resource),
  ("comparator", .string "EQUALS"),
  ("reference", .int 1)]

def Permission.sparse (resource : String) : Json := .object [
  ("type", .string "TRANSFER"),
  ("chainId", .string "1"),
  ("effect", .string "ALLOW"),
  ("conditions", .array [Condition.sparse resource])]

def Scope.sparse (resource : String) : Json := .object [
  ("permissions", .array [Permission.sparse resource]),
  ("name", .string "toffee")]

def Document.sparse (resources : List String) : Json := .object [
  ("scopes", .array (resources.map Scope.sparse)),
  ("partnerId", .string "family")]

theorem Condition.fits_sparse : (sparse resource).Fits wire := by
  have hone : (Json.int 1).IsFinite := ⟨1, rfl, by decide +kernel⟩
  simp only [sparse, fits_object, List.forall_mem_cons]
  simp [wire, IsText, hone]

theorem Permission.fits_sparse : (sparse resource).Fits wire := by
  simp only [sparse, fits_object, List.forall_mem_cons]
  simp [wire, WireField.listing, isListOf_array, IsText, Condition.fits_sparse]

theorem Scope.fits_sparse : (sparse resource).Fits wire := by
  simp only [sparse, fits_object, List.forall_mem_cons]
  simp [wire, WireField.listing, isListOf_array, IsText, Permission.fits_sparse]

theorem Document.fits_sparse (resources : List String) : (sparse resources).Fits wire := by
  simp only [sparse, fits_object, List.forall_mem_cons]
  simp [wire, WireField.listing, isListOf_array, IsText, Scope.fits_sparse]

theorem Condition.valid_sparse (h : Resource.Named resource) : Valid (sparse resource) where
  type := nofun
  resource := ⟨_, rfl, h⟩
  test := ⟨.equals, _, rfl, rfl, Or.inl ⟨1, rfl, by decide +kernel⟩⟩

theorem Permission.valid_sparse (h : Resource.Named resource) : Valid (sparse resource) where
  effect := ⟨.allow, rfl⟩
  chain := ⟨_, rfl, by decide⟩
  action := ⟨.transfer, rfl⟩
  conditions := List.forall_mem_singleton.mpr (Condition.valid_sparse h)

theorem Scope.valid_sparse (h : Resource.Named resource) : Valid (sparse resource) where
  name := ⟨_, rfl⟩
  permissions := List.forall_mem_singleton.mpr (Permission.valid_sparse h)
  different := List.pairwise_singleton _ _

theorem Condition.derails_sparse (h : Resource.argumentDigits? resource = some digits)
    (hlong : maxDigits < digits.length) : Derails (sparse resource) :=
  .longIndex (c := .equals) ⟨rfl, rfl, rfl, rfl⟩ h hlong

theorem Permission.derails_sparse (h : Resource.argumentDigits? resource = some digits)
    (hlong : maxDigits < digits.length) : Derails (sparse resource) :=
  .conditions (e := .allow) (a := .transfer) rfl rfl rfl
    (Or.inr ⟨[], _, [], rfl, by simp, Condition.derails_sparse h hlong⟩)

theorem Scope.derails_sparse (h : Resource.argumentDigits? resource = some digits)
    (hlong : maxDigits < digits.length) : Derails (sparse resource) :=
  .permissions rfl rfl (Or.inr ⟨[], _, [], rfl, by simp, Permission.derails_sparse h hlong⟩)

end Sparse

namespace Document

theorem derails_sparse {resource : String} {digits : List Char}
    (h : Resource.argumentDigits? resource = some digits)
    (hlong : maxDigits < digits.length) : Derails (sparse [resource]) :=
  .scopes rfl (Or.inr ⟨[], _, [], rfl, by simp, Scope.derails_sparse h hlong⟩)

/-- A value of the shape of a document is read just if it is valid, and written back with the
defaults filled in. Any other is refused with a cause, or for an argument with too many digits. -/
theorem ofJson_ok_iff_valid (h : v.Fits wire) :
    ((∃ d, ofJson v = .ok d) ↔ Valid v) ∧
    (∀ d, ofJson v = .ok d → d.toJson = v.completed wire) ∧
    (¬ Valid v → (∃ e, ofJson v = .error (.document e)) ∨
      LongIndexed v ∧ ofJson v = .error (.misuse .badValue)) := by
  have hdecides := decides_refusal h
  refine ⟨⟨fun ⟨d, hd⟩ => hdecides.holds hd, hdecides.gives⟩, fun d => toJson_eq_completed h, ?_⟩
  intro hno
  obtain ⟨f, hf, ⟨e, rfl⟩ | ⟨hlong, rfl⟩⟩ := hdecides.fails hno
  · exact Or.inl ⟨e, hf⟩
  · exact Or.inr ⟨hlong, hf⟩

/-- One scope is accepted, and completed. Two scopes of one name are refused. -/
theorem ofJson_ok_iff_valid_sparse :
    (∃ d, ofJson (sparse ["VALUE"]) = .ok d ∧ d.toJson = .object [
      ("partnerId", .string "family"),
      ("scopes", .array [.object [
        ("name", .string "toffee"),
        ("description", .string ""),
        ("required", .bool false),
        ("permissions", .array [.object [
          ("effect", .string "ALLOW"),
          ("chainId", .string "1"),
          ("type", .string "TRANSFER"),
          ("conditions", .array [.object [
            ("type", .string "STATIC"),
            ("resource", .string "VALUE"),
            ("comparator", .string "EQUALS"),
            ("reference", .int 1)]])]])]])]) ∧
    ∃ e, ofJson (sparse ["VALUE", "VALUE"]) = .error (.document e) := by
  constructor
  · have hvalid : Valid (sparse ["VALUE"]) := {
      partner := ⟨_, rfl⟩
      scopes := List.forall_mem_singleton.mpr (Scope.valid_sparse (Or.inl rfl))
      names := List.pairwise_singleton _ _
      window := nofun }
    obtain ⟨hok, hwritten, -⟩ := ofJson_ok_iff_valid (fits_sparse ["VALUE"])
    obtain ⟨d, hd⟩ := hok.mpr hvalid
    exact ⟨d, hd, hwritten d hd⟩
  · have hno : ¬ Valid (sparse ["VALUE", "VALUE"]) := by
      intro hvalid
      exact List.rel_of_pairwise_cons hvalid.names List.mem_cons_self rfl
    have hvalue : Resource.argumentDigits? "VALUE" = none := by decide +kernel
    have hshort : ¬ LongIndexed (sparse ["VALUE", "VALUE"]) := by
      simp [LongIndexed, Condition.LongIndexed, sparse, Scope.sparse, Permission.sparse,
        Condition.sparse, items, List.lookup_cons, hvalue]
    obtain ⟨-, -, hrefused⟩ := ofJson_ok_iff_valid (fits_sparse ["VALUE", "VALUE"])
    exact (hrefused hno).resolve_right fun hlong => hshort hlong.1

def longArgument : String :=
  Resource.argumentText (String.ofList (List.replicate (maxDigits + 1) '1'))

theorem digits_longArgument :
    Resource.argumentDigits? longArgument = some (List.replicate (maxDigits + 1) '1') := by
  apply Resource.argumentDigits?_argumentText
  · rw [List.replicate_succ]
    exact List.cons_ne_nil _ _
  · intro c hc
    rw [List.eq_of_mem_replicate hc]
    decide +kernel

/-- The argument is no resource, but the document is not refused with a cause. -/
theorem ofJson_undeclared : (sparse [longArgument]).Fits wire ∧ ¬ Valid (sparse [longArgument]) ∧
    ofJson (sparse [longArgument]) = .error (.misuse .badValue) := by
  have hlong : maxDigits < (List.replicate (maxDigits + 1) '1').length := by
    rw [List.length_replicate]
    exact Nat.lt_succ_self _
  have hderails := derails_sparse digits_longArgument hlong
  obtain ⟨f, hf, hundeclared⟩ := fails_ofJson_iff.mpr hderails
  have hdecides := decides_refusal (fits_sparse [longArgument])
  have hno : ¬ Valid (sparse [longArgument]) := by
    intro hvalid
    obtain ⟨d, hd⟩ := hdecides.gives hvalid
    cases hf.symm.trans hd
  refine ⟨fits_sparse _, hno, ?_⟩
  obtain ⟨_, hfault, ⟨e, rfl⟩ | ⟨-, rfl⟩⟩ := hdecides.fails hno
  · cases hf.symm.trans hfault
    exact absurd rfl (hundeclared e)
  · exact hfault

end Document

end Allowance
