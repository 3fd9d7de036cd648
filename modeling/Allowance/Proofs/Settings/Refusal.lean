import Allowance.Proofs.Number.Value
import Allowance.Proofs.Settings.Canonical
import Allowance.Proofs.Settings.Compile

/-! # Which options are refused

Options with a flaw are refused with a cause, and options without one are compiled. A limit that is
no positive number is a flaw, an address or a chain id of another form, an end of the window that is
no number, and a window that ends before it begins. Nothing else can go wrong: the document that is
put together breaks none of the rules for documents.
-/

namespace Allowance

open Checked

namespace Json

def IsPositive (v : Json) : Prop :=
  ∃ n, v = .number n ∧ n.isFinite? = some true ∧ Number.Below 0 n

theorem members_texts (ss : List String) :
    members (ss.map .string) = .ok (distinct (ss.map .string)) :=
  if_pos (by simp [isScalar])

theorem mem_distinct_texts {ss : List String} {v : Json} :
    v ∈ distinct (ss.map .string) ↔ v ∈ ss.map .string := by
  refine mem_distinct ?_ ?_
  · simp [isScalar]
  · intro u hu
    obtain ⟨s, _, rfl⟩ := List.mem_map.mp (mem_of_mem_distinct hu)
    exact ⟨s, rfl⟩

end Json

def Chain.Short (id : String) : Prop := id.toList.length ≤ Text.maxDigits

instance (id : String) : Decidable (Chain.Short id) := inferInstanceAs (Decidable (_ ≤ _))

theorem Chain.exists_rank {id : String} (hid : isId id = true) (hshort : Short id) :
    ∃ i, rank id = .ok i := by
  by_cases hnamed : id ∈ namedIds
  · obtain ⟨place, hplace, -⟩ := rank_of_named hnamed
    exact ⟨_, hplace⟩
  · simp only [isId, Bool.and_eq_true, List.all_eq_true, Bool.not_eq_true'] at hid
    have hne : id.toList ≠ [] := fun hnil => by simp_all
    have hread := Text.readInt?_of_digits hne hid.2
    rw [if_neg (Nat.not_lt.mpr hshort)] at hread
    unfold rank
    split
    · exact ⟨_, rfl⟩
    · rw [hread]
      exact ⟨_, rfl⟩

theorem Chain.exists_listed {ids : List String}
    (h : ∀ id ∈ ids, isId id = true ∧ Short id) : ∃ out, listed ids = .ok out := by
  have hranks : ∀ id ∈ ids, ∃ ranked : (Nat × Int) × String,
      (do return (← rank id, id) : Checked _) = .ok ranked := by
    intro id hid
    obtain ⟨i, hi⟩ := exists_rank (h id hid).1 (h id hid).2
    exact ⟨(i, id), by rw [hi]; rfl⟩
  obtain ⟨ranked, hranked⟩ := mapM_of_forall hranks
  exact ⟨_, listed_eq_ok.mpr ⟨ranked, hranked, rfl⟩⟩

namespace Options

def IsCause (f : Fault) : Prop := ∃ e, f = .options e

variable {v default : Json} {α : Type} {o : Options} {listed chains defaults : List String}

theorem decides_throw {e : OptionsError} : Decides IsCause (e.throw : Checked α) False :=
  Decides.error ⟨e, rfl⟩

theorem decides_number {e : OptionsError} {f : Number → Checked α} {P : Number → Prop}
    (h : ¬ v.IsHuge) (hf : ∀ n, n.isFinite? = some true → Decides IsCause (f n) (P n)) :
    Decides IsCause (do
      match ← v.finite? with
      | some n => f n
      | none => e.throw) (∃ n, v = .number n ∧ n.isFinite? = some true ∧ P n) := by
  rcases Json.finite?_of_not_huge h with ⟨n, rfl, hn, hfound⟩ | ⟨hno, hfound⟩
  · rw [hfound, ok_bind]
    refine (hf n hn).congr ⟨fun hP => ⟨n, rfl, hn, hP⟩, ?_⟩
    rintro ⟨_, ⟨⟩, -, hP⟩
    exact hP
  · rw [hfound, ok_bind]
    refine decides_throw.congr (iff_of_false id ?_)
    rintro ⟨n, hv, hn, -⟩
    exact hno ⟨n, hv, hn⟩

theorem decides_checkLimit (h : ¬ v.IsHuge) :
    Decides IsCause (checkLimit v) (v ≠ .null → v.IsPositive) := by
  unfold checkLimit
  split
  · exact (Decides.ok none).congr (by simp)
  · rename_i hset
    refine (decides_number (P := Number.Below 0) h fun n hn => ?_).congr
      ⟨fun hpositive _ => hpositive, fun hpositive => hpositive hset⟩
    have hzero : (0 : Number) ≠ .double .nan := nofun
    rw [← Number.lt_iff, ← Number.le_eq_false_iff (Number.ne_nan_of_isFinite hn rfl) hzero]
    split <;> rename_i hle
    · exact decides_throw.congr (by simp [hle])
    · exact (Decides.ok (some n)).congr (by simpa using hle)

theorem decides_checkTimestamp {label : String} (h : ¬ v.IsHuge) :
    Decides IsCause (checkTimestamp label v) (v ≠ .null → v.IsFinite) := by
  unfold checkTimestamp
  split
  · exact (Decides.ok none).congr (by simp)
  · rename_i hset
    have hfinite : (∃ n, v = .number n ∧ n.isFinite? = some true ∧ True) ↔ v.IsFinite := by
      simp [Json.IsFinite]
    exact (decides_number h fun n _ => Decides.ok (some n)).congr
      (hfinite.trans ⟨fun hv _ => hv, fun hv => hv hset⟩)

/-- The second value is a number below the first. -/
def Inverted (validFrom validTo : Json) : Prop :=
  ∃ start stop, validFrom = .number start ∧ validTo = .number stop ∧ stop.Below start

theorem decides_checkWindow {validFrom validTo : Json} (hfrom : ¬ validFrom.IsHuge)
    (hto : ¬ validTo.IsHuge) :
    Decides IsCause (checkWindow validFrom validTo)
      ((validFrom ≠ .null → validFrom.IsFinite) ∧ (validTo ≠ .null → validTo.IsFinite) ∧
        ¬ Inverted validFrom validTo) := by
  refine (decides_checkTimestamp hfrom).bind fun start hstart =>
    (decides_checkTimestamp hto).bind fun stop hstop => ?_
  rcases checkTimestamp_eq_ok.mp hstart with ⟨rfl, rfl⟩ | ⟨a, rfl, -, rfl⟩
  · exact (Decides.ok _).congr (by simp [Inverted])
  rcases checkTimestamp_eq_ok.mp hstop with ⟨rfl, rfl⟩ | ⟨b, rfl, -, rfl⟩
  · exact (Decides.ok _).congr (by simp [Inverted])
  have hinverted : Inverted (.number a) (.number b) ↔ b.lt a = true := by
    simp [Inverted, Number.lt_iff]
  rw [hinverted]
  dsimp only
  split
  · rename_i hlt
    exact decides_throw.congr (by simp [hlt])
  · rename_i hlt
    exact (Decides.ok _).congr (by simpa using hlt)

/-- The value is a collection of these texts, and not a text itself; null is an empty one. -/
def Collects (v : Json) (listed : List String) : Prop :=
  v = .null ∧ listed = [] ∨ v.text? = none ∧ v.parts = .ok (listed.map .string)

theorem decides_checkAddress (a : String) :
    Decides IsCause (checkAddress (.string a)) (Address.isAddress a = true) := by
  simp only [checkAddress]
  split <;> rename_i ha
  · exact (Decides.ok _).congr (by simp [ha])
  · exact decides_throw.congr (by simp [ha])

theorem decides_checkAddresses (h : Collects v listed) :
    Decides IsCause (checkAddresses v) (∀ a ∈ listed, Address.isAddress a = true) := by
  rcases h with ⟨rfl, rfl⟩ | ⟨htext, hparts⟩
  · exact (Decides.ok []).congr (by simp)
  · rw [checkAddresses_of_parts hparts htext, List.mapM_map]
    exact (Decides.mapM fun a _ => decides_checkAddress a).map _

def asked (chains defaults : List String) : List String :=
  if chains.isEmpty then defaults else chains

theorem decides_checkChains (ids : List String) :
    Decides IsCause (checkChains (Json.distinct (ids.map .string)))
      (∀ id ∈ ids, Chain.isId id = true) := by
  have hids : (∀ v ∈ Json.distinct (ids.map .string), Chain.isIdValue v = true) ↔
      ∀ id ∈ ids, Chain.isId id = true := by
    simp [Json.mem_distinct_texts, Chain.isIdValue]
  rw [← hids]
  unfold checkChains
  dsimp only
  split <;> rename_i hbad
  · exact (Decides.ok _).congr (by simpa [List.filter_eq_nil_iff] using hbad)
  · have htexts : ∀ v ∈ (Json.distinct (ids.map .string)).filter fun v => !Chain.isIdValue v,
        ∃ s, v = .string s := by
      intro v hv
      obtain ⟨s, -, rfl⟩ :=
        List.mem_map.mp (Json.mem_distinct_texts.mp (List.mem_filter.mp hv).1)
      exact ⟨s, rfl⟩
    obtain ⟨bad, hsorted⟩ := Json.sorted_of_texts htexts
    rw [hsorted, ok_bind]
    exact decides_throw.congr (by simpa [List.filter_eq_nil_iff] using hbad)

theorem chains_of_texts (hbase : o.restrictToBase.truthy = false)
    (hchains : o.allowedChains.partsIfAny = .ok (chains.map .string))
    (hdefaults : default.parts = .ok (defaults.map .string)) :
    o.chains default = (do Chain.listed (← checkChains
      (Json.distinct ((asked chains defaults).map .string)))) := by
  unfold Options.chains
  simp only [hbase, hchains, hdefaults, ok_bind, Json.members_texts, Bool.false_eq_true, if_false]
  cases chains with
  | nil => rfl
  | cons id ids =>
    have hid : Json.string id ∈ Json.distinct ((id :: ids).map .string) :=
      Json.mem_distinct_texts.mpr (by simp)
    rw [if_neg (by simpa [List.isEmpty_iff] using List.ne_nil_of_mem hid)]
    rfl

theorem decides_chains
    (hchains : o.allowedChains.partsIfAny = .ok (chains.map .string))
    (hdefaults : default.parts = .ok (defaults.map .string))
    (hshort : ∀ id ∈ asked chains defaults, Chain.isId id = true → Chain.Short id) :
    Decides IsCause (o.chains default)
      (o.restrictToBase.truthy = false → ∀ id ∈ asked chains defaults, Chain.isId id = true) := by
  cases hbase : o.restrictToBase.truthy with
  | true =>
    rw [chains_eq_ok.mpr (Or.inl ⟨hbase, rfl⟩)]
    exact (Decides.ok _).congr (by simp)
  | false =>
    rw [chains_of_texts hbase hchains hdefaults]
    refine ((decides_checkChains _).bind (Q := True) fun ids hids => ?_).congr (by simp)
    obtain ⟨hall, rfl⟩ := checkChains_eq_ok.mp hids
    have hreadable : ∀ id ∈ (Json.distinct ((asked chains defaults).map .string)).filterMap
        Json.text?, Chain.isId id = true ∧ Chain.Short id := by
      intro id hid
      obtain ⟨v, hv, htext⟩ := List.mem_filterMap.mp hid
      obtain ⟨name, hname, rfl⟩ := List.mem_map.mp (Json.mem_distinct_texts.mp hv)
      obtain rfl := Option.some.inj htext
      exact ⟨hall _ hv, hshort _ hname (hall _ hv)⟩
    obtain ⟨out, hout⟩ := Chain.exists_listed hreadable
    exact hout ▸ Decides.ok out

/-- The options hold values of the usual kinds: a limit and a window that are no integers beyond all
doubles, collections of texts for the addresses and the chains, and chain ids that can be read. -/
structure Plain (o : Options) (default : Json) (addresses chains defaults : List String) :
    Prop where
  limit : ¬ o.usdLimit.IsHuge
  validFrom : ¬ o.validFrom.IsHuge
  validTo : ¬ o.validTo.IsHuge
  addresses : Collects o.allowedAddresses addresses
  requested : o.allowedChains.partsIfAny = .ok (chains.map .string)
  fallback : default.parts = .ok (defaults.map .string)
  blocked : ∃ entries, o.blockedActions.entries = .ok entries
  short : ∀ id ∈ asked chains defaults, Chain.isId id = true → Chain.Short id

/-- What is wrong with options, of which these are the addresses and the chains that they ask for.
Chains do not matter to options that are restricted to Base. -/
inductive Flawed (o : Options) (addresses asked : List String) : Prop
  | limit (hset : o.usdLimit ≠ .null) (hno : ¬ o.usdLimit.IsPositive)
  | address {a : String} (ha : a ∈ addresses) (hno : Address.isAddress a = false)
  | validFrom (hset : o.validFrom ≠ .null) (hno : ¬ o.validFrom.IsFinite)
  | validTo (hset : o.validTo ≠ .null) (hno : ¬ o.validTo.IsFinite)
  | window (h : Inverted o.validFrom o.validTo)
  | chain {id : String} (hbase : o.restrictToBase.truthy = false) (hid : id ∈ asked)
      (hno : Chain.isId id = false)

theorem not_flawed_iff {addresses asked : List String} : ¬ o.Flawed addresses asked ↔
    (o.usdLimit ≠ .null → o.usdLimit.IsPositive) ∧
    (∀ a ∈ addresses, Address.isAddress a = true) ∧
    ((o.validFrom ≠ .null → o.validFrom.IsFinite) ∧ (o.validTo ≠ .null → o.validTo.IsFinite) ∧
      ¬ Inverted o.validFrom o.validTo) ∧
    (o.restrictToBase.truthy = false → ∀ id ∈ asked, Chain.isId id = true) := by
  constructor
  · intro h
    refine ⟨fun hset => ?_, fun a ha => ?_, ⟨fun hset => ?_, fun hset => ?_, fun hw => ?_⟩,
      fun hbase id hid => ?_⟩
    · exact by_contra fun hno => h (.limit hset hno)
    · exact by_contra fun hno => h (.address ha (by simpa using hno))
    · exact by_contra fun hno => h (.validFrom hset hno)
    · exact by_contra fun hno => h (.validTo hset hno)
    · exact h (.window hw)
    · exact by_contra fun hno => h (.chain hbase hid (by simpa using hno))
  · rintro ⟨hlimit, haddresses, ⟨hfrom, hto, hwindow⟩, hchains⟩ h
    cases h with
    | limit hset hno => exact hno (hlimit hset)
    | address ha hno => simp [haddresses _ ha] at hno
    | validFrom hset hno => exact hno (hfrom hset)
    | validTo hset hno => exact hno (hto hset)
    | window h => exact hwindow h
    | chain hbase hid hno => simp [hchains hbase _ hid] at hno

theorem decides_compile {partner : Json} {addresses : List String}
    (h : o.Plain default addresses chains defaults) :
    Decides IsCause (o.compile partner default)
      (¬ o.Flawed addresses (asked chains defaults)) := by
  obtain ⟨entries, hentries⟩ := h.blocked
  have hblocked : Decides IsCause o.blockedActions.entries True := hentries ▸ .ok entries
  refine Decides.map (Decides.congr ?_ not_flawed_iff.symm) _
  refine (decides_checkLimit h.limit).bind fun limit _ =>
    (decides_checkAddresses h.addresses).bind fun keys _ =>
    (decides_checkWindow h.validFrom h.validTo).bind fun window _ => ?_
  exact ((decides_chains h.requested h.fallback h.short).bind fun cs _ => hblocked.map _).congr
    (and_iff_left trivial)

/-- Options of the usual kinds are refused with a cause if they are flawed. Otherwise they become a
document that keeps the rules, so that reading it raises no objection. -/
theorem compile_refused_iff {partner : Json} {addresses : List String}
    (h : o.Plain default addresses chains defaults) :
    ((∃ e, o.compile partner default = .error (.options e)) ↔
      o.Flawed addresses (asked chains defaults)) ∧
    (¬ o.Flawed addresses (asked chains defaults) → ∃ d, o.compile partner default = .ok d ∧
      d.WellFormed ∧ Document.ofJson d.toJson = .ok d) := by
  have hdecides : Decides IsCause (o.compile partner default) _ := decides_compile h
  constructor
  · constructor
    · rintro ⟨e, he⟩
      by_contra hno
      obtain ⟨d, hd⟩ := hdecides.gives hno
      cases he.symm.trans hd
    · intro hflawed
      obtain ⟨_, hfault, e, rfl⟩ := hdecides.fails (not_not.mpr hflawed)
      exact ⟨e, hfault⟩
  · intro hno
    obtain ⟨d, hd⟩ := hdecides.gives hno
    obtain ⟨s, hs, rfl⟩ := compile_eq_ok.mp hd
    have hwell := (wellFormed_of_check hs).document partner
    exact ⟨_, hd, hwell, Document.ofJson_toJson hwell⟩

theorem plain_pocketMoney : pocketMoney.Plain defaultChains
    ["0x52908400098527886E0F7030069857D2E4169EE7"] ["8453", "1"] Chain.namedIds where
  limit := Json.IsFinite.not_huge ⟨15, rfl, by decide +kernel⟩
  validFrom := Json.IsFinite.not_huge ⟨1000, rfl, by decide +kernel⟩
  validTo := Json.IsFinite.not_huge ⟨2000, rfl, by decide +kernel⟩
  addresses := Or.inr ⟨rfl, rfl⟩
  requested := rfl
  fallback := rfl
  blocked := ⟨[], rfl⟩
  short := by decide +kernel

theorem not_flawed_pocketMoney :
    ¬ pocketMoney.Flawed ["0x52908400098527886E0F7030069857D2E4169EE7"] ["8453", "1"] := by
  rw [not_flawed_iff]
  refine ⟨fun _ => ⟨15, rfl, by decide +kernel, Number.lt_iff.mp (by decide +kernel)⟩,
    by decide +kernel, ⟨fun _ => ⟨1000, rfl, by decide +kernel⟩,
      fun _ => ⟨2000, rfl, by decide +kernel⟩, ?_⟩, fun _ => by decide +kernel⟩
  rintro ⟨_, _, ⟨⟩, ⟨⟩, hbelow⟩
  exact absurd (Number.lt_iff.mpr hbelow) (by decide +kernel)

def pocketMoneyAstray : Options :=
  { pocketMoney with allowedChains := .ofTexts ["8453", "mars"] }

theorem compile_refused_pocketMoney :
    (∃ d, pocketMoney.compile (.string "home") defaultChains = .ok d ∧ d.WellFormed) ∧
    ∃ e, pocketMoneyAstray.compile (.string "home") defaultChains = .error (.options e) := by
  constructor
  · obtain ⟨d, hd, hwell, -⟩ := (compile_refused_iff plain_pocketMoney).2 not_flawed_pocketMoney
    exact ⟨d, hd, hwell⟩
  · have hplain : pocketMoneyAstray.Plain defaultChains
        ["0x52908400098527886E0F7030069857D2E4169EE7"] ["8453", "mars"] Chain.namedIds :=
      { plain_pocketMoney with requested := rfl, short := by decide +kernel }
    have hmars : "mars" ∈ asked ["8453", "mars"] Chain.namedIds := by decide
    exact (compile_refused_iff hplain).1.mpr (.chain rfl hmars (by decide +kernel))

end Options

end Allowance
