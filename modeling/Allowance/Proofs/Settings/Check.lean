import Allowance.Proofs.Json.Access
import Allowance.Settings.Compile

/-! # Options that pass

Each check of options is read backwards: what the options hold when the check succeeds, and what it
gives then.
-/

namespace Allowance

open Checked

namespace Options

variable {v defaultChains : Json} {o : Options} {s : Settings}

@[simp] theorem throw_ne_ok {α : Type} {e : OptionsError} {a : α} : e.throw ≠ .ok a := nofun

theorem checkLimit_eq_ok {limit : Option Number} : checkLimit v = .ok limit ↔
    (v = .null ∧ limit = none) ∨
    ∃ n, v = .number n ∧ n.isFinite? = some true ∧ n.le 0 = false ∧ limit = some n := by
  constructor
  · intro h
    unfold checkLimit at h
    split at h
    · exact Or.inl ⟨rfl, (pure_eq_ok.mp h).symm⟩
    · obtain ⟨found, hf, h⟩ := bind_eq_ok.mp h
      cases found with
      | none => simp at h
      | some n =>
        obtain ⟨rfl, hn⟩ := Json.number_of_finite? hf
        by_cases hle : n.le 0 = true
        · simp [hle] at h
        · simp only [hle] at h
          exact Or.inr ⟨n, rfl, hn, by simpa using hle, (pure_eq_ok.mp h).symm⟩
  · rintro (⟨rfl, rfl⟩ | ⟨n, rfl, hn, hle, rfl⟩)
    · rfl
    · simp [checkLimit, Json.finite?_of_finite hn, hle, pure_eq_ok]

theorem checkTimestamp_eq_ok {label : String} {t : Option Number} :
    checkTimestamp label v = .ok t ↔
    (v = .null ∧ t = none) ∨ ∃ n, v = .number n ∧ n.isFinite? = some true ∧ t = some n := by
  constructor
  · intro h
    unfold checkTimestamp at h
    split at h
    · exact Or.inl ⟨rfl, (pure_eq_ok.mp h).symm⟩
    · obtain ⟨found, hf, h⟩ := bind_eq_ok.mp h
      cases found with
      | none => simp at h
      | some n =>
        obtain ⟨rfl, hn⟩ := Json.number_of_finite? hf
        exact Or.inr ⟨n, rfl, hn, (pure_eq_ok.mp h).symm⟩
  · rintro (⟨rfl, rfl⟩ | ⟨n, rfl, hn, rfl⟩)
    · rfl
    · simp [checkTimestamp, Json.finite?_of_finite hn, pure_eq_ok]

theorem checkWindow_eq_ok {validFrom validTo : Json} {window : Option Number × Option Number}
    (h : checkWindow validFrom validTo = .ok window) :
    checkTimestamp "valid_from" validFrom = .ok window.1 ∧
      checkTimestamp "valid_to" validTo = .ok window.2 := by
  obtain ⟨start, hstart, h⟩ := bind_eq_ok.mp h
  obtain ⟨stop, hstop, h⟩ := bind_eq_ok.mp h
  suffices hw : (start, stop) = window by rw [← hw]; exact ⟨hstart, hstop⟩
  split at h
  · split at h
    · simp at h
    · exact pure_eq_ok.mp h
  · exact pure_eq_ok.mp h

theorem checkAddress_eq_ok {key : String} : checkAddress v = .ok key ↔
    ∃ s, v = .string s ∧ Address.isAddress s = true ∧ key = Address.key s := by
  constructor
  · intro h
    unfold checkAddress at h
    split at h
    · rename_i s
      split at h
      · rename_i hs
        exact ⟨s, rfl, hs, by simpa using h.symm⟩
      · simp at h
    · simp at h
  · rintro ⟨s, rfl, hs, rfl⟩
    simp [checkAddress, hs]

theorem mem_sortedTexts {s : String} {ss : List String} : s ∈ sortedTexts ss ↔ s ∈ ss := by
  simp [sortedTexts, List.mem_eraseDups]

theorem checkAddresses_eq_ok {keys : List String} (h : checkAddresses v = .ok keys) :
    (v = .null ∧ keys = []) ∨ ∃ parts found, v.parts = .ok parts ∧
      parts.mapM checkAddress = .ok found ∧ keys = sortedTexts found := by
  unfold checkAddresses at h
  split at h
  · exact Or.inl ⟨rfl, (pure_eq_ok.mp h).symm⟩
  · simp at h
  · obtain ⟨parts, hparts, h⟩ := bind_eq_ok.mp h
    obtain ⟨found, hfound, h⟩ := bind_eq_ok.mp h
    exact Or.inr ⟨parts, found, hparts, hfound, (pure_eq_ok.mp h).symm⟩

theorem check_eq_ok : o.check defaultChains = .ok s ↔
    checkLimit o.usdLimit = .ok s.usdLimit ∧
    checkAddresses o.allowedAddresses = .ok s.addresses ∧
    checkWindow o.validFrom o.validTo = .ok (s.validFrom, s.validTo) ∧
    o.chains defaultChains = .ok s.chains ∧
    (∃ entries, o.blockedActions.entries = .ok entries ∧ s.blocked = extraBlocks entries) ∧
    s.signing = o.allowSignMessages.truthy := by
  constructor
  · intro h
    obtain ⟨limit, hlimit, h⟩ := bind_eq_ok.mp h
    obtain ⟨addresses, haddresses, h⟩ := bind_eq_ok.mp h
    obtain ⟨window, hwindow, h⟩ := bind_eq_ok.mp h
    obtain ⟨chains, hchains, h⟩ := bind_eq_ok.mp h
    obtain ⟨entries, hentries, h⟩ := bind_eq_ok.mp h
    obtain rfl := pure_eq_ok.mp h
    exact ⟨hlimit, haddresses, hwindow, hchains, ⟨entries, hentries, rfl⟩, rfl⟩
  · rintro ⟨hlimit, haddresses, hwindow, hchains, ⟨entries, hentries, hblocked⟩, hsigning⟩
    simp only [check, hlimit, haddresses, hwindow, hchains, hentries, ok_bind, pure_eq_ok,
      ← hblocked, ← hsigning]

theorem compile_eq_ok {partner : Json} {d : Document} :
    o.compile partner defaultChains = .ok d ↔
      ∃ s, o.check defaultChains = .ok s ∧ s.document partner = d := by
  simp only [compile, bind_eq_ok, pure_eq_ok]

end Options

end Allowance
