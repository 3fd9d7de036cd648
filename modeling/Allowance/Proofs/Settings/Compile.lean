import Allowance.Proofs.Document.Wire
import Allowance.Proofs.Settings.Chains

/-! # Compiled documents are well formed

Settings that come from checked options have different chains, a finite limit and a window that is
not inverted. So the document that they become keeps all rules for documents, in whatever order its
chains stand.
-/

namespace Allowance

open Checked

/-- What settings have to satisfy for their document to keep the rules. -/
structure Settings.WellFormed (s : Settings) : Prop where
  chains : s.chains.Nodup
  ids : ∀ id ∈ s.chains, id ≠ ""
  limit : ∀ n, s.usdLimit = some n → n.isFinite? = some true
  blocked : s.blocked.Nodup
  validFrom : ∀ n, s.validFrom = some n → n.isFinite? = some true
  validTo : ∀ n, s.validTo = some n → n.isFinite? = some true
  window : Document.inverted s.validFrom s.validTo = false

namespace Options

variable {o : Options} {default : Json} {s : Settings}

theorem finite_of_checkTimestamp {label : String} {v : Json} {t : Option Number}
    (h : checkTimestamp label v = .ok t) : ∀ n, t = some n → n.isFinite? = some true := by
  rcases checkTimestamp_eq_ok.mp h with ⟨_, rfl⟩ | ⟨m, _, hm, rfl⟩
  · simp
  · simpa using hm

theorem inverted_of_checkWindow {validFrom validTo : Json} {window : Option Number × Option Number}
    (h : checkWindow validFrom validTo = .ok window) :
    Document.inverted window.1 window.2 = false := by
  obtain ⟨start, _, h⟩ := bind_eq_ok.mp h
  obtain ⟨stop, _, h⟩ := bind_eq_ok.mp h
  split at h
  · split at h
    · exact absurd h throw_ne_ok
    · rename_i hlt
      obtain rfl := pure_eq_ok.mp h
      simpa [Document.inverted] using hlt
  · rename_i hopen
    obtain rfl := pure_eq_ok.mp h
    unfold Document.inverted
    split
    · exact (hopen _ _ ‹_› ‹_›).elim
    · rfl

theorem wellFormed_of_check (h : o.check default = .ok s) : s.WellFormed := by
  obtain ⟨hlimit, _, hwindow, hchains, ⟨entries, _, hblocked⟩, _⟩ := check_eq_ok.mp h
  obtain ⟨hfrom, hto⟩ := checkWindow_eq_ok hwindow
  obtain ⟨hnodup, hids⟩ := chains_nodup hchains
  refine ⟨hnodup, ?_, ?_, ?_, finite_of_checkTimestamp hfrom, finite_of_checkTimestamp hto,
    inverted_of_checkWindow hwindow⟩
  · rintro id hid rfl
    exact absurd (hids _ hid) (by decide)
  · rcases checkLimit_eq_ok.mp hlimit with ⟨_, hs⟩ | ⟨n, _, hn, _, hs⟩
    · simp [hs]
    · simpa [hs] using hn
  · rw [hblocked]
    exact List.filter_sublist.nodup (by decide)

end Options

namespace Settings

variable {s : Settings}

theorem WellFormed.of_perm {cs : List String} (h : s.WellFormed) (hp : cs.Perm s.chains) :
    WellFormed { s with chains := cs } where
  chains := hp.nodup_iff.mpr h.chains
  ids id hid := h.ids id (hp.mem_iff.mp hid)
  limit := h.limit
  blocked := h.blocked
  validFrom := h.validFrom
  validTo := h.validTo
  window := h.window

theorem WellFormed.conditions (h : s.WellFormed) : ∀ c ∈ s.transferConditions, c.WellFormed := by
  intro c hc
  rcases List.mem_append.mp hc with hc | hc
  · cases hl : s.usdLimit with
    | none => simp [hl] at hc
    | some n =>
      obtain rfl : c = ⟨.value, .lessThan n⟩ := by simpa [hl] using hc
      exact ⟨rfl, h.limit n hl⟩
  · split at hc
    · simp at hc
    · obtain rfl := List.mem_singleton.mp hc
      exact ⟨rfl, trivial⟩

theorem WellFormed.transferScope (h : s.WellFormed) : s.transferScope.WellFormed := by
  refine ⟨fun p hp => ?_, ?_⟩
  · obtain ⟨chain, hc, rfl⟩ := List.mem_map.mp hp
    exact ⟨h.ids chain hc, h.conditions⟩
  · refine List.pairwise_map.mpr (h.chains.imp fun hne => ?_)
    simp [Permission.overlaps, Permission.covers, Ne.symm hne]

theorem WellFormed.scopeOf (h : s.WellFormed) {entry : ScopeEntry} {effect : Effect}
    {actions : List Action} (ha : actions.Nodup) :
    (s.scopeOf entry effect actions).WellFormed := by
  refine ⟨fun p hp => ?_, ?_⟩
  · obtain ⟨action, _, hp⟩ := List.mem_flatMap.mp hp
    obtain ⟨chain, hc, rfl⟩ := List.mem_map.mp hp
    exact ⟨h.ids chain hc, by simp⟩
  · refine List.pairwise_flatMap.mpr ⟨fun action _ => ?_, ha.imp fun hne p hp q hq => ?_⟩
    · refine List.pairwise_map.mpr (h.chains.imp fun hne => ?_)
      simp [Permission.overlaps, Permission.covers, Ne.symm hne]
    · obtain ⟨_, _, rfl⟩ := List.mem_map.mp hp
      obtain ⟨_, _, rfl⟩ := List.mem_map.mp hq
      simp [Permission.overlaps, Permission.covers, Ne.symm hne]

def entries (blocked signing : Bool) : List ScopeEntry :=
  [.transfer, .denyDeploy, .denySmartContract] ++ (if blocked then [.blocked] else []) ++
    (if signing then [.signMessages] else [])

def scopeNames (blocked signing : Bool) : List Json :=
  (entries blocked signing).map fun entry => .string entry.name

theorem names_scopes : s.scopes.map (·.name) = scopeNames (!s.blocked.isEmpty) s.signing := by
  unfold scopes scopeNames entries
  cases s.blocked.isEmpty <;> cases s.signing <;> rfl

theorem unshared_names : ∀ blocked signing, ∀ name ∈ scopeNames blocked signing,
    (scopeNames blocked signing).countP name.same ≤ 1 := by decide +kernel

/-- The document of well-formed settings is well formed. -/
theorem WellFormed.document (h : s.WellFormed) (partner : Json) :
    (s.document partner).WellFormed where
  scopes := by
    simp only [Settings.document, scopes, List.mem_append, List.mem_cons, List.not_mem_nil,
      or_false]
    rintro scope (((rfl | rfl | rfl) | hb) | hs)
    · exact h.transferScope
    · exact h.scopeOf (by decide)
    · exact h.scopeOf (by decide)
    · split at hb
      · simp at hb
      · obtain rfl := List.mem_singleton.mp hb
        exact h.scopeOf h.blocked
    · split at hs
      · obtain rfl := List.mem_singleton.mp hs
        exact h.scopeOf (by decide)
      · simp at hs
  names scope hscope := by
    have hnames := unshared_names (!s.blocked.isEmpty) s.signing
    rw [← names_scopes] at hnames
    exact hnames scope.name (List.mem_map_of_mem hscope)
  validFrom := h.validFrom
  validTo := h.validTo
  window := h.window

end Settings

end Allowance
